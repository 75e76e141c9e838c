/-
**Where declarations stand.**

A tree is read in one pass, which carries the namespace and the last node along and collects what
it reads.  Here the two are taken apart.  A first pass only finds the places where functions and
classes stand, each with its namespace and the comment in front of it, and reads nothing.  Every
place is then read by itself, as if nothing else were there, and so is every member of a class.
What the one pass collects is what the places yield, one behind the other.

Main definitions:

* `HintCheck.Site` — the place of a declaration, and `HintCheck.Site.ofTree`,
  `HintCheck.Site.members`, the places in a tree and between the braces of a class;
* `HintCheck.Site.alone`, `HintCheck.Site.member` — what is read at a place by itself.

Main results:

* `HintCheck.Site.consistsOf_ofNodes` — nodes declare what the places among them yield;
* `HintCheck.Members.ofNodes_eq_concat` — a class has the members that their places yield;
* `HintCheck.SourceFile.ofTree_consistsOf` — so has a file its functions and classes.
-/

import HintCheck.Source.Harvest

set_option relaxedAutoImplicit false
set_option autoImplicit false

namespace HintCheck

/-! ### Stretches one behind the other -/

namespace Harvest

@[simp] theorem functions_append (a b : Harvest) :
    (a ++ b).functions = a.functions ++ b.functions := rfl

@[simp] theorem classes_append (a b : Harvest) : (a ++ b).classes = a.classes ++ b.classes := rfl

@[simp] theorem failures_append (a b : Harvest) :
    (a ++ b).failures = a.failures ++ b.failures := rfl

@[simp] theorem append_empty (h : Harvest) : h ++ ({} : Harvest) = h := by
  obtain ⟨scope, imports, functions, classes, failures⟩ := h
  change append _ _ = _
  simp [append]

/-- A stretch declares what some others declare, one behind the other. -/
structure ConsistsOf (h : Harvest) (hs : List Harvest) : Prop where
  functions : h.functions = hs.flatMap (·.functions)
  classes : h.classes = hs.flatMap (·.classes)
  failures : h.failures = hs.flatMap (·.failures)

theorem consistsOf_nil (scope : Option Text) (imports : List (Text × Text)) :
    ({ scope, imports } : Harvest).ConsistsOf [] := ⟨rfl, rfl, rfl⟩

theorem consistsOf_singleton (h : Harvest) : h.ConsistsOf [h] := by
  constructor <;> simp

theorem ConsistsOf.append {a b : Harvest} {as bs : List Harvest} (ha : a.ConsistsOf as)
    (hb : b.ConsistsOf bs) : (a ++ b).ConsistsOf (as ++ bs) := by
  constructor
  · simp [ha.functions, hb.functions]
  · simp [ha.classes, hb.classes]
  · simp [ha.failures, hb.failures]

end Harvest

namespace Members

@[simp] theorem empty_append (m : Members) : ({} : Members) ++ m = m := rfl

@[simp] theorem append_empty (m : Members) : m ++ ({} : Members) = m := by
  obtain ⟨methods, properties, constants, failures⟩ := m
  change append _ _ = _
  simp [append]

/-- The members of several stretches, one behind the other. -/
def concat (ms : List Members) : Members := ms.foldr (· ++ ·) {}

theorem concat_cons (m : Members) (ms : List Members) :
    concat (m :: ms) = m ++ concat ms := rfl

end Members

/-! ### The comment in front -/

namespace Node

/-- The comment in front of a node, given the node in front of it. -/
def commentBefore : Option Node → Option Lexeme
  | some (.leaf l) => if l.isComment then some l else none
  | _ => none

theorem commentBefore_branch (form : Form) (parts : List Node) :
    commentBefore (some (.branch form parts)) = none := rfl

theorem commentBefore_leaf {l : Lexeme} (h : l.isComment = true) :
    commentBefore (some (.leaf l)) = some l := if_pos h

/-- A node that is no comment does not matter to the declaration behind it. -/
theorem docBefore_commentBefore (before : Option Node) :
    docBefore ((commentBefore before).map .leaf) = docBefore before := by
  match before with
  | none => rfl
  | some (.branch _ _) => rfl
  | some (.leaf l) =>
    by_cases h : l.isComment = true
    · rw [commentBefore_leaf h]
      rfl
    · have hcomment : (some (leaf l)).filter (·.isComment) = none := by simp [isComment, h]
      simp only [commentBefore, if_neg h, docBefore, hcomment]
      rfl

end Node

/-- What a node declares depends on the node in front of it only through the comment that is read
there. -/
theorem Harvest.ofNode_congr {before before' : Option Node}
    (h : Node.docBefore before = Node.docBefore before') (scope : Option Text) (n : Node) :
    ofNode scope before n = ofNode scope before' n := by
  match n with
  | .leaf _ => rfl
  | .branch form parts =>
    cases form with
    | function => simp only [ofNode, ofFunction, FunctionDecl.ofNode, h]
    | classLike kind => simp only [ofNode, ofClass, ClassDecl.ofNode, h]
    | _ => rfl

/-- So it is with a member of a class. -/
theorem Members.ofNode_congr {before before' : Option Node}
    (h : Node.docBefore before = Node.docBefore before') (n : Node) :
    ofNode before n = ofNode before' n := by
  match n with
  | .leaf _ => rfl
  | .branch form parts =>
    cases form with
    | method => simp only [ofNode, MethodDecl.ofNode, h]
    | property => simp only [ofNode, PropertyDecl.ofNode, h]
    | constant => simp only [ofNode, ConstantDecl.ofNode, h]
    | _ => rfl

/-! ### Sites -/

/-- Where something is declared. -/
structure Site where
  /-- The namespace that holds there. -/
  scope : Option Text
  /-- The comment right in front. -/
  comment : Option Lexeme
  node : Node

/-- Whether a node is a function, or a class with a name. -/
def Node.isDeclared : Node → Bool
  | .branch .function _ => true
  | .branch (.classLike _) _ => true
  | _ => false

/-- Whether a node is a member of a class that is read. -/
def Node.isMember (n : Node) : Bool :=
  n.isForm .method || n.isForm .property || n.isForm .constant

/-- The parts of a class from its name on. -/
def Node.fromName : Node → List Node
  | .branch (.classLike kind) parts =>
    ((parts.dropWhile (!·.isWord kind.word)).drop 1).dropWhile (!·.isAnyWord)
  | _ => []

/-- What is between the braces of a class. -/
def Node.betweenBraces (n : Node) : List Node :=
  match (n.fromName.drop 1).find? (·.isForm .members) with
  | some braces => braces.parts
  | none => []

namespace Site

/-- The nodes of a site: its declaration behind its comment. -/
def stretch (s : Site) : List Node := (s.comment.map Node.leaf).toList ++ [s.node]

/-- What a site yields where its nodes are all there is. -/
def alone (s : Site) : Harvest := (Harvest.ofNodes s.scope none s.stretch).1

/-- What a site between the braces of a class yields where its nodes are all there is. -/
def member (s : Site) : Members := Members.ofNodes none s.stretch

mutual

/-- The sites of a node in a namespace, and the namespace behind it. -/
def ofNode (scope : Option Text) (before : Option Node) : Node → List Site × Option Text
  | .leaf _ => ([], scope)
  | .branch .imports _ => ([], scope)
  | .branch .function parts =>
    ([⟨scope, Node.commentBefore before, .branch .function parts⟩], scope)
  | .branch (.classLike kind) parts =>
    ([⟨scope, Node.commentBefore before, .branch (.classLike kind) parts⟩], scope)
  | .branch .scope parts =>
    let name := Harvest.scopeName? parts
    match inBody name parts with
    | some inside => (inside, scope)
    | none => ([], name)
  | .branch _ parts => ofNodes scope none parts

/-- The sites of nodes that follow each other. -/
def ofNodes (scope : Option Text) (before : Option Node) : List Node → List Site × Option Text
  | [] => ([], scope)
  | n :: ns =>
    let first := ofNode scope before n
    let others := ofNodes first.2 (some n) ns
    (first.1 ++ others.1, others.2)

/-- The sites of the first body among some nodes. -/
def inBody (scope : Option Text) : List Node → Option (List Site)
  | [] => none
  | .branch .body inside :: _ => some (ofNodes scope none inside).1
  | _ :: ns => inBody scope ns

end

/-- The sites of functions and classes in a tree, in order. -/
def ofTree (tree : List Node) : List Site := (ofNodes none none tree).1

/-- The sites of members among the nodes between the braces of a class. -/
def among (scope : Option Text) (before : Option Node) : List Node → List Site
  | [] => []
  | n :: ns =>
    (if n.isMember then [⟨scope, Node.commentBefore before, n⟩] else []) ++
      among scope (some n) ns

/-- The sites of the members of a class. -/
def members (s : Site) : List Site := among s.scope none s.node.betweenBraces

/-! ### Reading a site -/

theorem alone_eq (s : Site) :
    s.alone = (Harvest.ofNode s.scope (s.comment.map .leaf) s.node).1 := by
  rw [← Harvest.append_empty (Harvest.ofNode _ _ _).1]
  cases h : s.comment with
  | none => simp only [alone, stretch, h]; rfl
  | some l => simp only [alone, stretch, h]; rfl

theorem member_eq (s : Site) : s.member = Members.ofNode (s.comment.map .leaf) s.node := by
  cases h : s.comment with
  | none => simp [member, stretch, h, Members.ofNodes_cons]
  | some l =>
    have hleaf : Members.ofNode none (.leaf l) = {} := rfl
    simp [member, stretch, h, Members.ofNodes_cons, hleaf]

/-- At a site, the rest of the tree does not matter. -/
theorem consistsOf_alone (scope : Option Text) (before : Option Node) (n : Node) :
    (Harvest.ofNode scope before n).1.ConsistsOf
      [alone ⟨scope, Node.commentBefore before, n⟩] := by
  have halone := alone_eq ⟨scope, Node.commentBefore before, n⟩
  rw [Harvest.ofNode_congr (Node.docBefore_commentBefore before)] at halone
  rw [halone]
  exact Harvest.consistsOf_singleton _

theorem member_mk (scope : Option Text) (before : Option Node) (n : Node) :
    member ⟨scope, Node.commentBefore before, n⟩ = Members.ofNode before n := by
  rw [member_eq, Members.ofNode_congr (Node.docBefore_commentBefore before)]

/-! ### Reading all sites -/

mutual

/-- Behind a node the same namespace holds for those who read and for those who look for sites, and
what is read is what the sites yield. -/
theorem consistsOf_ofNode (scope : Option Text) (before : Option Node) : ∀ n : Node,
    (Harvest.ofNode scope before n).2 = (ofNode scope before n).2 ∧
      (Harvest.ofNode scope before n).1.ConsistsOf ((ofNode scope before n).1.map alone)
  | .leaf _ => ⟨rfl, Harvest.consistsOf_nil none []⟩
  | .branch .imports _ => ⟨rfl, Harvest.consistsOf_nil none _⟩
  | .branch .function _ => ⟨rfl, consistsOf_alone scope before _⟩
  | .branch (.classLike _) _ => ⟨rfl, consistsOf_alone scope before _⟩
  | .branch .scope parts => by
    have hbody := consistsOf_inBody (Harvest.scopeName? parts) parts
    simp only [Harvest.ofNode, ofNode]
    generalize Harvest.inBody (Harvest.scopeName? parts) parts = read at hbody
    generalize inBody (Harvest.scopeName? parts) parts = sites at hbody
    cases hbody with
    | none => exact ⟨rfl, Harvest.consistsOf_nil _ []⟩
    | some hinside => exact ⟨rfl, (Harvest.consistsOf_nil _ []).append hinside⟩
  | .branch .brackets parts => consistsOf_ofNodes scope none parts
  | .branch .body parts => consistsOf_ofNodes scope none parts
  | .branch .members parts => consistsOf_ofNodes scope none parts
  | .branch .method parts => consistsOf_ofNodes scope none parts
  | .branch .property parts => consistsOf_ofNodes scope none parts
  | .branch .constant parts => consistsOf_ofNodes scope none parts

/-- Nodes that follow each other declare what their sites yield. -/
theorem consistsOf_ofNodes (scope : Option Text) (before : Option Node) : ∀ ns : List Node,
    (Harvest.ofNodes scope before ns).2 = (ofNodes scope before ns).2 ∧
      (Harvest.ofNodes scope before ns).1.ConsistsOf ((ofNodes scope before ns).1.map alone)
  | [] => ⟨rfl, Harvest.consistsOf_nil none []⟩
  | n :: ns => by
    obtain ⟨hscope, hfirst⟩ := consistsOf_ofNode scope before n
    obtain ⟨hbehind, hothers⟩ := consistsOf_ofNodes (ofNode scope before n).2 (some n) ns
    simp only [Harvest.ofNodes, ofNodes, hscope, List.map_append]
    exact ⟨hbehind, hfirst.append hothers⟩

/-- The first body among some nodes, if there is one, declares what its sites yield. -/
theorem consistsOf_inBody (scope : Option Text) : ∀ ns : List Node,
    Option.Rel (fun h sites => h.ConsistsOf (sites.map alone)) (Harvest.inBody scope ns)
      (inBody scope ns)
  | [] => .none
  | .leaf _ :: ns => consistsOf_inBody scope ns
  | .branch form parts :: ns => by
    cases form with
    | body => exact .some (consistsOf_ofNodes scope none parts).2
    | _ => exact consistsOf_inBody scope ns

end

end Site

/-- A node that is no member that is read adds nothing to a class. -/
theorem Members.ofNode_of_not_isMember {n : Node} (h : n.isMember = false) (before : Option Node) :
    ofNode before n = {} := by
  match n with
  | .leaf _ => rfl
  | .branch form _ =>
    cases form with
    | method | property | constant => cases h
    | _ => rfl

/-- A class has the members that the sites between its braces yield. -/
theorem Members.ofNodes_eq_concat (scope : Option Text) (before : Option Node) (ns : List Node) :
    ofNodes before ns = concat ((Site.among scope before ns).map Site.member) := by
  induction ns generalizing before with
  | nil => rfl
  | cons n ns ih =>
    rw [ofNodes_cons, ih, Site.among]
    by_cases h : n.isMember = true
    · rw [if_pos h, List.singleton_append, List.map_cons, Site.member_mk, concat_cons]
    · rw [if_neg h, ofNode_of_not_isMember (Bool.eq_false_iff.mpr h), empty_append,
        List.nil_append]

/-! ### The file of a tree -/

/-- The functions, the classes and the failures of a file. -/
def SourceFile.harvest (f : SourceFile) : Harvest :=
  { functions := f.functions, classes := f.classes, failures := f.failures }

/-- A file has the functions, the classes and the failures that its sites yield. -/
theorem SourceFile.ofTree_consistsOf (path source : Text) (tree : List Node) :
    (ofTree path source tree).harvest.ConsistsOf ((Site.ofTree tree).map Site.alone) :=
  have h := (Site.consistsOf_ofNodes none none tree).2
  ⟨h.functions, h.classes, h.failures⟩

end HintCheck
