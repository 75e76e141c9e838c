/-
**A malformed declaration costs only itself.**

A function, a method, a property or a constant that cannot be read is left out, and one failure
stands for it.  A class whose comment cannot be read is kept with all its members, as if it had no
comment, and one failure tells of it.  Nothing of this is felt by other declarations, whatever
becomes of them: to exchange the comment of a declaration exchanges what that declaration yields,
and all that others yield stays in its place.

Main definitions:

* `HintCheck.Site.fault?` — what cannot be read at a site;
* `HintCheck.ClassDecl.yield` — what a class yields with its members.

Main results:

* `HintCheck.Site.functionOrFailure`, `HintCheck.Site.classAndFailure`,
  `HintCheck.Site.memberOrFailure` — what a site yields, be it malformed or not;
* `HintCheck.TreePlace.exists_ofTree_fill`, `HintCheck.ClassPlace.exists_alone_fill` — what other
  sites yield stays;
* `HintCheck.SourceFile.ofTree_isolated` — **a malformed declaration costs only itself.**
-/

import HintCheck.Proofs.Source.Titled

set_option relaxedAutoImplicit false
set_option autoImplicit false

namespace HintCheck

variable {s m : Site}

/-! ### What cannot be read -/

/-- The failure of an attempt to read something. -/
def faultOf? {α : Type} : Except ReadFailure α → Option ReadFailure
  | .ok _ => none
  | .error failure => some failure

namespace Site

/-- The comment of a site. -/
def doc (s : Site) : Except ReadFailure Doc := Node.docBefore (s.comment.map .leaf)

/-- The comment of a site, or no comment when it cannot be read. -/
def doc? (s : Site) : Doc :=
  match s.doc with
  | .ok d => d
  | .error _ => none

/-- What cannot be read at a site: the signature, where there has to be one, or else the comment. -/
def fault? (s : Site) : Option ReadFailure :=
  if s.node.isForm .function || s.node.isForm .method then
    (faultOf? s.node.readSignature).or (faultOf? s.doc)
  else faultOf? s.doc

end Site

/-! ### Functions and members -/

/-- The parts of a declaration of constants that declare one each. -/
def Node.constantElements (n : Node) : List (List Node) :=
  (Node.branch .constant (n.parts.drop (n.parts.findIdx (·.isWord "const") + 1))).elements
    Node.isAnyWord

namespace Site

theorem fault?_of_signature (h : (s.node.isForm .function || s.node.isForm .method) = true) :
    s.fault? = (faultOf? s.node.readSignature).or (faultOf? s.doc) := if_pos h

theorem fault?_of_no_signature (hf : s.node.isForm .function = false)
    (hm : s.node.isForm .method = false) : s.fault? = faultOf? s.doc := by
  simp [fault?, hf, hm]

theorem doc_eq_of_faultOf? (h : faultOf? s.doc = none) : s.doc = .ok s.doc? := by
  unfold doc?
  cases hd : s.doc with
  | ok d => rfl
  | error failure => rw [hd] at h; cases h

theorem doc?_of_faultOf? {failure : ReadFailure} (h : faultOf? s.doc = some failure) :
    s.doc? = none := by
  unfold doc?
  cases hd : s.doc with
  | ok d => rw [hd] at h; cases h
  | error _ => rfl

/-- A fault of the signature or of the comment keeps a declaration with both from being read. -/
theorem read_of_fault {α : Type} (build : Signature → Doc → α) {n : Node} {failure : ReadFailure}
    (h : (faultOf? n.readSignature).or (faultOf? s.doc) = some failure) :
    (do
        let signature ← n.readSignature
        let doc ← s.doc
        return build signature doc : Except ReadFailure α) = .error failure := by
  cases hsignature : n.readSignature with
  | error _ =>
    rw [hsignature] at h
    cases h
    rfl
  | ok signature =>
    cases hdoc : s.doc with
    | error _ =>
      rw [hsignature, hdoc] at h
      cases h
      rfl
    | ok d => rw [hsignature, hdoc] at h; cases h

/-- Without one, it is read. -/
theorem read_of_no_fault {α : Type} (build : Signature → Doc → α) {n : Node}
    (h : (faultOf? n.readSignature).or (faultOf? s.doc) = none) :
    ∃ signature, n.readSignature = .ok signature ∧
      (do
          let signature ← n.readSignature
          let doc ← s.doc
          return build signature doc : Except ReadFailure α) = .ok (build signature s.doc?) := by
  obtain ⟨hsignature, hdoc⟩ := Option.or_eq_none_iff.mp h
  rw [doc_eq_of_faultOf? hdoc]
  cases hread : n.readSignature with
  | error _ => rw [hread] at hsignature; cases hsignature
  | ok signature => exact ⟨signature, rfl, rfl⟩

/-- A function is read with its signature and its comment, or it is lost and costs one failure. -/
structure FunctionOrFailure (s : Site) : Prop where
  isFunction : s.node.isForm .function = true
  lost : ∀ failure, s.fault? = some failure → s.alone = { failures := [failure] }
  read : s.fault? = none → ∃ signature, s.node.readSignature = .ok signature ∧
    s.alone = { functions := [⟨signature.line, signature, s.doc?⟩] }

theorem functionOrFailure (h : s.node.isForm .function = true) : s.FunctionOrFailure := by
  have hfault := fault?_of_signature (s := s) (by rw [h, Bool.true_or])
  obtain ⟨parts, hnode⟩ := Node.exists_of_isForm h
  refine ⟨h, fun failure hs => ?_, fun hs => ?_⟩
  · have hread : FunctionDecl.ofNode (s.comment.map .leaf) s.node = .error failure :=
      read_of_fault _ (hfault ▸ hs)
    rw [hnode] at hread
    simp only [alone_eq, hnode, Harvest.ofNode, Harvest.ofFunction, hread]
  · obtain ⟨signature, hsignature, hread⟩ :=
      read_of_no_fault (fun signature doc => FunctionDecl.mk signature.line signature doc)
        (hfault ▸ hs)
    refine ⟨signature, hsignature, ?_⟩
    have hread : FunctionDecl.ofNode (s.comment.map .leaf) s.node = .ok _ := hread
    rw [hnode] at hread
    simp only [alone_eq, hnode, Harvest.ofNode, Harvest.ofFunction, hread]

/-- A method is read with its signature and its comment, or it costs one failure. -/
theorem member_of_method (h : m.node.isForm .method = true) :
    (∀ failure, m.fault? = some failure → m.member = { failures := [failure] }) ∧
      (m.fault? = none → ∃ signature getter, m.node.readSignature = .ok signature ∧
        m.member = { methods := [⟨signature.line, signature, m.doc?, getter⟩] }) := by
  have hfault := fault?_of_signature (s := m) (by rw [h, Bool.or_true])
  obtain ⟨parts, hnode⟩ := Node.exists_of_isForm h
  refine ⟨fun failure hm => ?_, fun hm => ?_⟩
  · have hread : MethodDecl.ofNode (m.comment.map .leaf) m.node = .error failure :=
      read_of_fault _ (hfault ▸ hm)
    rw [hnode] at hread
    simp only [member_eq, hnode, Members.ofNode, hread, Members.failed]
  · let getter := (m.node.parts.find? (·.isForm .body)).bind fun body => getterOf? body.text
    obtain ⟨signature, hsignature, hread⟩ :=
      read_of_no_fault (fun signature doc => MethodDecl.mk signature.line signature doc getter)
        (hfault ▸ hm)
    refine ⟨signature, getter, hsignature, ?_⟩
    have hread : MethodDecl.ofNode (m.comment.map .leaf) m.node = .ok _ := hread
    rw [hnode] at hread
    simp only [member_eq, hnode, Members.ofNode, hread]

/-- A declaration without a signature is read with its comment, of which `build` makes members, or
it costs one failure. -/
theorem member_of_build (build : Doc → Members) (hfunction : m.node.isForm .function = false)
    (hmethod : m.node.isForm .method = false)
    (hbuild : m.member = match m.doc with
      | .ok doc => build doc
      | .error failure => Members.failed failure) :
    (∀ failure, m.fault? = some failure → m.member = { failures := [failure] }) ∧
      (m.fault? = none → m.member = build m.doc?) := by
  have hfault : m.fault? = faultOf? m.doc := fault?_of_no_signature hfunction hmethod
  rw [hfault, hbuild]
  cases hdoc : m.doc with
  | ok doc =>
    refine ⟨fun failure hm => ?_, fun _ => ?_⟩
    · cases hm
    · rw [doc?, hdoc]
  | error other =>
    refine ⟨fun failure hm => ?_, fun hm => ?_⟩
    · cases hm
      rfl
    · cases hm

/-- Properties are read with their comment, or their declaration costs one failure. -/
theorem member_of_property (h : m.node.isForm .property = true) :
    (∀ failure, m.fault? = some failure → m.member = { failures := [failure] }) ∧
      (m.fault? = none → m.member =
        { properties := (m.node.elements Node.isDollarName).map
            (PropertyDecl.ofElement (Ty.ofDeclaration m.node.tokens) m.doc?) }) := by
  obtain ⟨parts, hnode⟩ := Node.exists_of_isForm h
  refine member_of_build
    (fun doc =>
      { properties := (m.node.elements Node.isDollarName).map
          (PropertyDecl.ofElement (Ty.ofDeclaration m.node.tokens) doc) })
    (by rw [hnode]; rfl) (by rw [hnode]; rfl) ?_
  rw [member_eq, hnode, doc]
  simp only [Members.ofNode, PropertyDecl.ofNode]
  cases Node.docBefore (m.comment.map .leaf) <;> rfl

/-- Constants are read with their comment, or their declaration costs one failure. -/
theorem member_of_constant (h : m.node.isForm .constant = true) :
    (∀ failure, m.fault? = some failure → m.member = { failures := [failure] }) ∧
      (m.fault? = none → m.member =
        { constants := m.node.constantElements.map (ConstantDecl.ofElement m.doc?) }) := by
  obtain ⟨parts, hnode⟩ := Node.exists_of_isForm h
  refine member_of_build
    (fun doc => { constants := m.node.constantElements.map (ConstantDecl.ofElement doc) })
    (by rw [hnode]; rfl) (by rw [hnode]; rfl) ?_
  rw [member_eq, hnode, doc]
  simp only [Members.ofNode, ConstantDecl.ofNode]
  cases Node.docBefore (m.comment.map .leaf) <;> rfl

end Site

/-! ### Classes -/

namespace ClassDecl

/-- A class that a node declares, with neither comment nor members. -/
def bare (scope : Option Text) (kind : ClassKind) (title : Node) (head : List Node) : ClassDecl :=
  let bases := Node.namesBehind "extends" head
  { line := title.line
    kind
    name := title.text
    fullName := ClassName.qualify scope title.text
    scope
    doc := none
    parent := if kind = .interface then none else bases.head?
    interfaces :=
      (if kind = .interface then bases else []) ++ Node.namesBehind "implements" head
    methods := []
    properties := []
    constants := [] }

/-- A class with a comment, with members, and with what could not be read of it itself. -/
def yield (c : ClassDecl) (doc : Doc) (fault : Option ReadFailure) (m : Members) : Harvest :=
  { classes := [{ c with
      doc, methods := m.methods, properties := m.properties, constants := m.constants }]
    failures := fault.toList ++ m.failures }

end ClassDecl

namespace Site

/-- A class is read whether or not its comment can be read, and with all its members. -/
theorem alone_of_class {kind : ClassKind} {parts rest : List Node} {title : Node}
    (hnode : s.node = .branch (.classLike kind) parts) (h : s.node.fromName = title :: rest) :
    s.alone = (ClassDecl.bare s.scope kind title (rest.takeWhile (!·.isForm .members))).yield
      s.doc? (faultOf? s.doc) (Members.concat (s.members.map member)) := by
  have hmembers : Members.concat (s.members.map member) =
      Members.ofNodes none s.node.betweenBraces := (Members.ofNodes_eq_concat _ _ _).symm
  rw [hmembers, Node.betweenBraces, h, alone_eq, List.drop_one, List.tail_cons]
  rw [hnode, Node.fromName] at h
  rw [hnode, Harvest.ofNode, Harvest.ofClass]
  simp only [ClassDecl.ofNode, Node.parts, h]
  unfold doc? doc
  cases rest.find? (·.isForm .members) <;>
    cases Node.docBefore (s.comment.map .leaf) <;> rfl

/-- A class without a name is no class, whatever its comment. -/
theorem alone_of_unnamed {kind : ClassKind} (hkind : s.node.isForm (.classLike kind) = true)
    (h : s.node.fromName = []) : s.alone = {} := by
  obtain ⟨parts, hnode⟩ := Node.exists_of_isForm hkind
  rw [hnode, Node.fromName] at h
  rw [alone_eq, hnode, Harvest.ofNode, Harvest.ofClass]
  simp only [ClassDecl.ofNode, Node.parts, h]

/-- A class is read with all its members.  When its comment cannot be read, it has none, and there
is one failure more. -/
structure ClassAndFailure (s : Site) (kind : ClassKind) : Prop where
  isClass : s.node.isForm (.classLike kind) = true
  read : ∀ title rest, s.node.fromName = title :: rest →
    s.alone = (ClassDecl.bare s.scope kind title (rest.takeWhile (!·.isForm .members))).yield
      s.doc? s.fault? (Members.concat (s.members.map member))
  doc_lost : ∀ failure, s.fault? = some failure → s.doc? = none
  unnamed : s.node.fromName = [] → s.alone = {}

/-- A method, or what a declaration of properties or of constants lists, is read, or it is lost and
costs one failure. -/
structure MemberOrFailure (m : Site) : Prop where
  isMember : m.node.isMember = true
  lost : ∀ failure, m.fault? = some failure → m.member = { failures := [failure] }
  method_read : m.node.isForm .method = true → m.fault? = none →
    ∃ signature getter, m.node.readSignature = .ok signature ∧
      m.member = { methods := [⟨signature.line, signature, m.doc?, getter⟩] }
  property_read : m.node.isForm .property = true → m.fault? = none → m.member =
    { properties := (m.node.elements Node.isDollarName).map
        (PropertyDecl.ofElement (Ty.ofDeclaration m.node.tokens) m.doc?) }
  constant_read : m.node.isForm .constant = true → m.fault? = none → m.member =
    { constants := m.node.constantElements.map (ConstantDecl.ofElement m.doc?) }

theorem classAndFailure {kind : ClassKind} (h : s.node.isForm (.classLike kind) = true) :
    s.ClassAndFailure kind := by
  obtain ⟨parts, hnode⟩ := Node.exists_of_isForm h
  have hfault : s.fault? = faultOf? s.doc :=
    fault?_of_no_signature (by rw [hnode]; rfl) (by rw [hnode]; rfl)
  exact ⟨h, fun title rest hname => hfault ▸ alone_of_class hnode hname,
    fun failure hs => doc?_of_faultOf? (hfault ▸ hs), alone_of_unnamed h⟩

theorem memberOrFailure (h : m.node.isMember = true) : m.MemberOrFailure := by
  refine ⟨h, ?_, fun hm => (member_of_method hm).2, fun hm => (member_of_property hm).2,
    fun hm => (member_of_constant hm).2⟩
  rw [Node.isMember, Bool.or_eq_true, Bool.or_eq_true] at h
  rcases h with (hmethod | hproperty) | hconstant
  · exact (member_of_method hmethod).1
  · exact (member_of_property hproperty).1
  · exact (member_of_constant hconstant).1

theorem functionOrFailure_or_classAndFailure (h : s.node.isDeclared = true) :
    s.FunctionOrFailure ∨ ∃ kind, s.ClassAndFailure kind := by
  match hn : s.node with
  | .leaf _ => rw [hn] at h; cases h
  | .branch form parts =>
    rw [hn] at h
    cases form with
    | function => exact .inl (functionOrFailure (by rw [hn]; rfl))
    | classLike kind =>
      exact .inr ⟨kind, classAndFailure (by rw [hn]; exact beq_self_eq_true _)⟩
    | _ => cases h

end Site

/-- The file of a tree with a gap consists of what its sites yield, and only one of them changes
with what is put into the gap. -/
theorem TreePlace.exists_ofTree_fill (p : TreePlace) :
    ∃ front back : List Harvest, ∀ s, p.Holds none s → ∀ path source,
      (SourceFile.ofTree path source (p.fill s.stretch)).harvest.ConsistsOf
        (front ++ s.alone :: back) := by
  obtain ⟨first, others, last, hfill⟩ := p.exists_ofNodes_fill none
  refine ⟨first.map Site.alone, others.map Site.alone, fun s hs path source => ?_⟩
  have hfile := SourceFile.ofTree_consistsOf path source (p.fill s.stretch)
  rwa [Site.ofTree, hfill s hs, List.map_append, List.map_cons] at hfile

/-- A class with a gap has the members that their sites yield, and only one of them changes with
what is put into the gap. -/
theorem ClassPlace.exists_alone_fill (q : ClassPlace) (s : Site) :
    ∃ (c : ClassDecl) (before behind : List Members), ∀ m, q.Holds m → m.scope = s.scope →
      Site.alone { s with node := q.fill m.stretch } =
        c.yield s.doc? (faultOf? s.doc) (Members.concat (before ++ m.member :: behind)) := by
  obtain ⟨first, others, hfill⟩ := q.exists_among_fill s.scope
  refine ⟨.bare s.scope q.kind q.title q.head, first.map Site.member, others.map Site.member,
    fun m hm hscope => ?_⟩
  rw [Site.alone_of_class rfl (q.fromName_fill m.stretch), q.takeWhile_braces, Site.members,
    q.betweenBraces_fill, hfill m hm hscope, List.map_append, List.map_cons]
  rfl

/-- **A malformed declaration costs only itself.**  For every tree, and so for that of every text:

* the functions, the classes and the failures of the file are what its sites yield, each by itself
  and one behind the other;
* a site yields its function or one failure, or else its class with all members, and one failure
  more when the comment of the class is malformed;
* with any other comment in front of it, malformed or not, the site yields what it does with that
  comment, and all other sites yield what they did;
* so it is with every member of the class, which yields itself or one failure, and the rest of the
  class stays as well.

A class without a name is none; in the tree of a text all classes have names. -/
theorem SourceFile.ofTree_isolated (path source : Text) (tree : List Node) :
    (ofTree path source tree).harvest.ConsistsOf ((Site.ofTree tree).map Site.alone) ∧
      (∀ s ∈ Site.ofTree tree, ∃ (p : TreePlace) (front back : List Harvest),
        tree = p.fill s.stretch ∧
        (∀ t, s.Recommented t →
          (t.FunctionOrFailure ∨ ∃ kind, t.ClassAndFailure kind) ∧
          ∀ source', (ofTree path source' (p.fill t.stretch)).harvest.ConsistsOf
            (front ++ t.alone :: back)) ∧
        ∀ m ∈ s.members, ∃ (q : ClassPlace) (c : ClassDecl) (before behind : List Members),
          s.node = q.fill m.stretch ∧
          ∀ k, m.Recommented k → k.MemberOrFailure ∧
            ∀ source', (ofTree path source'
                (p.fill (Site.stretch { s with node := q.fill k.stretch }))).harvest.ConsistsOf
              (front ++ c.yield s.doc? s.fault? (.concat (before ++ k.member :: behind)) ::
                back)) ∧
      ∀ text, ∀ s ∈ Site.ofTree (Node.ofSource text), ∀ kind,
        s.node.isForm (.classLike kind) = true → s.node.fromName ≠ [] := by
  refine ⟨ofTree_consistsOf path source tree, fun s hs => ?_, fun text s hs kind hkind =>
    Site.fromName_ne_nil_of_mem_ofSource hs hkind⟩
  obtain ⟨p, hp, htree⟩ := TreePlace.exists_of_mem_ofTree hs
  obtain ⟨front, back, hfile⟩ := p.exists_ofTree_fill
  refine ⟨p, front, back, htree, fun t ht => ?_, fun m hm => ?_⟩
  · have hplace := hp.recommented ht
    exact ⟨Site.functionOrFailure_or_classAndFailure hplace.isDeclared,
      fun source' => hfile t hplace path source'⟩
  · obtain ⟨q, hq, hscope, hnode⟩ := ClassPlace.exists_of_mem_members hm
    obtain ⟨c, before, behind, hclass⟩ := q.exists_alone_fill s
    have hfault : s.fault? = faultOf? s.doc :=
      Site.fault?_of_no_signature (by rw [hnode]; rfl) (by rw [hnode]; rfl)
    refine ⟨q, c, before, behind, hnode, fun k hk => ?_⟩
    have hmember := hq.recommented hk
    refine ⟨Site.memberOrFailure hmember.isMember, fun source' => ?_⟩
    have hyield := hclass k hmember (by cases hk <;> exact hscope)
    rw [hfault, ← hyield]
    exact hfile _ (hp.withNode (q.isDeclared_fill _)) path source'

/-- A source text in which a function, a class and a method have malformed comments. -/
def malformedText : Text :=
  ("<?php\n/** @ broken */\nfunction f() \x7b\x7d\n/** @ broken */\nclass C \x7b\n" ++
    "/** @ broken */\nfunction m() \x7b\x7d\nfunction n() \x7b\x7d\n\x7d\n" ++
    "function g() \x7b\x7d").toList

/-- A comment without tags. -/
def plainComment : Lexeme :=
  { kind := .comment, gap := ['\n'], text := "/** Plain. */".toList, line := 6 }

/-- Its other declarations are read, and a comment without tags saves its method. -/
theorem SourceFile.ofTree_isolated_of_malformedText :
    let tree := Node.ofSource malformedText
    let f := ofSource [] malformedText
    (f.functions.map (·.signature.name) = ["g".toList] ∧
        f.classes.map (fun c => (c.name, c.methods.map (·.signature.name))) =
          [("C".toList, ["n".toList])] ∧
        f.failures.map (·.line) = [2, 4, 6]) ∧
      ∃ s ∈ Site.ofTree tree, s.fault? = some ⟨4, .emptyTagName 4⟩ ∧
        ∃ m ∈ s.members, m.fault? = some ⟨6, .emptyTagName 6⟩ ∧
          m.member = { failures := [⟨6, .emptyTagName 6⟩] } ∧
          ∃ (p : TreePlace) (q : ClassPlace) (c : ClassDecl) (front back : List Harvest)
            (before behind : List Members),
            let mended : Site := { m with comment := some plainComment }
            tree = p.fill s.stretch ∧ s.node = q.fill m.stretch ∧
              f.harvest.ConsistsOf
                (front ++ c.yield s.doc? s.fault? (.concat (before ++ m.member :: behind)) ::
                  back) ∧
              (ofTree [] [] (p.fill
                  (Site.stretch { s with node := q.fill mended.stretch }))).harvest.ConsistsOf
                (front ++ c.yield s.doc? s.fault? (.concat (before ++ mended.member :: behind)) ::
                  back) := by
  intro tree f
  obtain ⟨hread, s, hs, hfault, m, hm, hmember⟩ :
      (f.functions.map (·.signature.name) = ["g".toList] ∧
        f.classes.map (fun c => (c.name, c.methods.map (·.signature.name))) =
          [("C".toList, ["n".toList])] ∧
        f.failures.map (·.line) = [2, 4, 6]) ∧
      ∃ s ∈ Site.ofTree tree, s.fault? = some ⟨4, .emptyTagName 4⟩ ∧
        ∃ m ∈ s.members, m.fault? = some ⟨6, .emptyTagName 6⟩ := by
    decide +kernel
  obtain ⟨p, front, back, htree, -, hmembers⟩ := (ofTree_isolated [] malformedText tree).2.1 s hs
  obtain ⟨q, c, before, behind, hnode, hsame⟩ := hmembers m hm
  obtain ⟨hlost, hfile⟩ := hsame m .same
  obtain ⟨-, hmended⟩ := hsame _ (.other plainComment rfl)
  refine ⟨hread, s, hs, hfault, m, hm, hmember, hlost.lost _ hmember, p, q, c, front, back, before,
    behind, htree, hnode, ?_, hmended []⟩
  have hfile := hfile malformedText
  rwa [← hnode, ← htree, ← ofSource] at hfile

end HintCheck
