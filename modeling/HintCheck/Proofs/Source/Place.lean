/-
**One declaration exchanged for another.**

A place is a tree with a gap where a function or a class is looked for, and likewise a class with a
gap between its braces.  Whatever fits into the gap stands at a site of its own there, and the sites
in front of it and behind it are the same for everything that fits: a comment is of no use to any
declaration but the one behind it, and only a namespace holds for others.  Every site of a tree is
at a place, and so is every member of a class.

Main definitions:

* `HintCheck.TreePlace`, `HintCheck.TreePlace.fill` — a tree with a gap;
* `HintCheck.ClassPlace`, `HintCheck.ClassPlace.fill` — a class with a gap;
* `HintCheck.Site.Fits`, `HintCheck.TreePlace.Holds` — what may be put into a gap.

Main results:

* `HintCheck.TreePlace.exists_ofNodes_fill`, `HintCheck.ClassPlace.exists_among_fill` — the other
  sites do not change with what is put into the gap;
* `HintCheck.TreePlace.exists_of_mem_ofTree`, `HintCheck.ClassPlace.exists_of_mem_members` — every
  site is at a place.
-/

import HintCheck.Proofs.Source.Site
import Mathlib.Data.List.TakeWhile

set_option relaxedAutoImplicit false
set_option autoImplicit false

namespace HintCheck

variable {s t : Site} {done : List Node} {scope : Option Text}

/-! ### Sites behind each other -/

theorem Node.isComment_of_commentBefore {before : Option Node} {l : Lexeme}
    (h : commentBefore before = some l) : before = some (.leaf l) ∧ l.isComment = true := by
  match before with
  | none => cases h
  | some (.branch _ _) => cases h
  | some (.leaf k) =>
    by_cases hk : k.isComment = true
    · rw [commentBefore_leaf hk] at h
      cases h
      exact ⟨rfl, hk⟩
    · simp [commentBefore, hk] at h

theorem Node.exists_of_isForm {n : Node} {form : Form} (h : n.isForm form = true) :
    ∃ parts, n = .branch form parts := by
  match n with
  | .leaf _ => cases h
  | .branch f parts => exact ⟨parts, by rw [beq_iff_eq.mp h]⟩

namespace Site

theorem ofNode_of_isDeclared {n : Node} (h : n.isDeclared = true) (scope : Option Text)
    (before : Option Node) :
    ofNode scope before n = ([⟨scope, Node.commentBefore before, n⟩], scope) := by
  match n with
  | .leaf _ => cases h
  | .branch form _ =>
    cases form with
    | function | classLike _ => rfl
    | _ => cases h

theorem ofNodes_cons (scope : Option Text) (before : Option Node) (n : Node) (ns : List Node) :
    ofNodes scope before (n :: ns) =
      ((ofNode scope before n).1 ++ (ofNodes (ofNode scope before n).2 (some n) ns).1,
        (ofNodes (ofNode scope before n).2 (some n) ns).2) := rfl

theorem ofNodes_append (scope : Option Text) (before : Option Node) (ns ms : List Node) :
    ofNodes scope before (ns ++ ms) =
      let first := ofNodes scope before ns
      let others := ofNodes first.2 (ns.getLast?.or before) ms
      (first.1 ++ others.1, others.2) := by
  induction ns generalizing scope before with
  | nil => rfl
  | cons n ns ih =>
    simp only [List.cons_append, ofNodes_cons, ih, Text.getLast?_cons_or, List.append_assoc]

/-- A node that is no comment does not matter to the sites behind it. -/
theorem ofNode_congr {before before' : Option Node}
    (h : Node.commentBefore before = Node.commentBefore before') (scope : Option Text) (n : Node) :
    ofNode scope before n = ofNode scope before' n := by
  match n with
  | .leaf _ => rfl
  | .branch form _ =>
    cases form with
    | function | classLike _ => simp only [ofNode, h]
    | _ => rfl

theorem ofNodes_congr {before before' : Option Node}
    (h : Node.commentBefore before = Node.commentBefore before') (scope : Option Text)
    (ns : List Node) : ofNodes scope before ns = ofNodes scope before' ns := by
  cases ns with
  | nil => rfl
  | cons n ns => rw [ofNodes_cons, ofNodes_cons, ofNode_congr h]

theorem ofNodes_behind_branch (scope : Option Text) (form : Form) (parts ns : List Node) :
    ofNodes scope (some (.branch form parts)) ns = ofNodes scope none ns :=
  ofNodes_congr (Node.commentBefore_branch form parts) scope ns

end Site

/-! ### What may stand behind some nodes -/

/-- The nodes of a site may stand behind others: its comment is a comment, and when it has none, it
does not take the last of the others for one. -/
structure Site.Fits (s : Site) (front : List Node) : Prop where
  isComment : ∀ l ∈ s.comment, l.isComment = true
  nearest : s.comment = none → Node.commentBefore front.getLast? = none

/-- The sites that differ from one in the comment at most. -/
inductive Site.Recommented (s : Site) : Site → Prop
  | same : Recommented s s
  | other (l : Lexeme) (h : l.isComment = true) : Recommented s { s with comment := some l }

namespace Site

theorem Fits.recommented (h : s.Fits done) (ht : s.Recommented t) : t.Fits done := by
  cases ht with
  | same => exact h
  | other l hl => exact ⟨by simpa using hl, by simp⟩

theorem Fits.withNode (h : s.Fits done) (n : Node) : Fits { s with node := n } done :=
  ⟨h.isComment, h.nearest⟩

/-- A node with the comment in front of it is a site that fits behind the nodes in front. -/
theorem exists_fits (scope : Option Text) (done : List Node) (n : Node) :
    let s : Site := ⟨scope, Node.commentBefore done.getLast?, n⟩
    ∃ front, s.Fits front ∧ done ++ [n] = front ++ s.stretch ∧
      ∀ scope', (ofNodes scope' none front).2 = (ofNodes scope' none done).2 := by
  intro s
  cases h : Node.commentBefore done.getLast? with
  | none =>
    have hs : s.comment = none := h
    exact ⟨done, ⟨by simp [hs], fun _ => h⟩, by simp [stretch, s, h], fun _ => rfl⟩
  | some l =>
    have hs : s.comment = some l := h
    obtain ⟨hlast, hl⟩ := Node.isComment_of_commentBefore h
    obtain ⟨front, hdone⟩ := List.getLast?_eq_some_iff.mp hlast
    refine ⟨front, ⟨by simpa [hs] using hl, by simp [hs]⟩, ?_, ?_⟩
    · rw [stretch, hs, hdone]
      simp [s]
    · intro scope'
      rw [hdone, ofNodes_append]
      rfl

/-- What is found from a declaration on that fits behind some nodes. -/
theorem Fits.ofNodes_stretch (h : s.Fits done) (hnode : s.node.isDeclared = true)
    (back : List Node) :
    ofNodes s.scope done.getLast? (s.stretch ++ back) =
      (s :: (ofNodes s.scope none back).1, (ofNodes s.scope none back).2) := by
  have hback : ofNodes s.scope (some s.node) back = ofNodes s.scope none back := by
    match hn : s.node with
    | .leaf _ => rw [hn] at hnode; cases hnode
    | .branch _ _ => exact ofNodes_behind_branch _ _ _ _
  obtain ⟨scope, comment, n⟩ := s
  cases comment with
  | none =>
    have hnear := h.nearest rfl
    simp only [stretch, Option.map_none, Option.toList_none, List.nil_append, List.cons_append,
      ofNodes_cons, ofNode_of_isDeclared hnode, hnear, hback]
  | some l =>
    have hleaf : ofNode scope done.getLast? (.leaf l) = ([], scope) := rfl
    have hl := h.isComment l rfl
    simp only [stretch, Option.map_some, Option.toList_some, List.cons_append, List.nil_append,
      ofNodes_cons, hleaf, ofNode_of_isDeclared hnode, Node.commentBefore_leaf hl, hback]

end Site

/-! ### Places in a tree -/

/-- The forms of nodes whose declarations are looked for whatever is in front of them. -/
def Form.isOpen : Form → Bool
  | .function | .classLike _ | .scope | .imports => false
  | _ => true

/-- A tree with a gap at which declarations are looked for. -/
inductive TreePlace where
  | here (front back : List Node)
  /-- The gap is inside a bracket, or inside what is no declaration of a file. -/
  | inside (front : List Node) (form : Form) (isOpen : form.isOpen = true) (place : TreePlace)
      (back : List Node)
  /-- The gap is between the braces of a namespace. -/
  | inScope (front head : List Node) (bodiless : ∀ n ∈ head, n.isForm .body = false)
      (place : TreePlace) (tail back : List Node)

namespace TreePlace

/-- The tree with the gap filled. -/
def fill (p : TreePlace) (ns : List Node) : List Node :=
  match p with
  | here front back => front ++ (ns ++ back)
  | inside front form _ p back => front ++ .branch form (p.fill ns) :: back
  | inScope front head _ p tail back =>
    front ++ .branch .scope (head ++ .branch .body (p.fill ns) :: tail) :: back

/-- The nodes right in front of the gap. -/
def front : TreePlace → List Node
  | here front _ => front
  | inside _ _ _ p _ => p.front
  | inScope _ _ _ p _ _ => p.front

/-- The namespace that holds at the gap. -/
def scopeFrom (scope : Option Text) : TreePlace → Option Text
  | here front _ => (Site.ofNodes scope none front).2
  | inside front _ _ p _ => p.scopeFrom (Site.ofNodes scope none front).2
  | inScope _ head _ p tail _ =>
    p.scopeFrom (Harvest.scopeName? (head ++ .branch .body [] :: tail))

/-- A site of a function or a class may be put into the gap. -/
structure Holds (p : TreePlace) (scope : Option Text) (s : Site) : Prop where
  scope_eq : s.scope = p.scopeFrom scope
  isDeclared : s.node.isDeclared = true
  fits : s.Fits p.front

theorem Holds.recommented {p : TreePlace} (h : p.Holds scope s) (ht : s.Recommented t) :
    p.Holds scope t := by
  refine ⟨?_, ?_, h.fits.recommented ht⟩
  · cases ht <;> exact h.scope_eq
  · cases ht <;> exact h.isDeclared

theorem Holds.withNode {p : TreePlace} (h : p.Holds scope s) {n : Node} (hn : n.isDeclared = true) :
    p.Holds scope { s with node := n } := ⟨h.scope_eq, hn, h.fits.withNode n⟩

/-! ### Filling a gap -/

theorem ofNode_inside {form : Form} (h : form.isOpen = true) (scope : Option Text)
    (before : Option Node) (parts : List Node) :
    Site.ofNode scope before (.branch form parts) = Site.ofNodes scope none parts := by
  cases form with
  | function | classLike _ | scope | imports => cases h
  | _ => rfl

/-- The name of a namespace is not looked for between its braces. -/
theorem scopeName?_fill (head tail inside : List Node) :
    Harvest.scopeName? (head ++ .branch .body inside :: tail) =
      Harvest.scopeName? (head ++ .branch .body [] :: tail) := by
  have hbody : ∀ ns, (Node.branch .body ns).isForm .body = true := fun _ => rfl
  cases head with
  | nil => rfl
  | cons n ns => simp [Harvest.scopeName?, hbody]

theorem inBody_fill {head : List Node} (h : ∀ n ∈ head, n.isForm .body = false)
    (scope : Option Text) (inside tail : List Node) :
    Site.inBody scope (head ++ .branch .body inside :: tail) =
      some (Site.ofNodes scope none inside).1 := by
  induction head with
  | nil => rfl
  | cons n ns ih =>
    have hn := h n List.mem_cons_self
    rw [← ih fun m hm => h m (List.mem_cons_of_mem n hm)]
    match n with
    | .leaf _ => rfl
    | .branch form _ =>
      cases form with
      | body => cases hn
      | _ => rfl

theorem ofNode_inScope {head : List Node} (h : ∀ n ∈ head, n.isForm .body = false)
    (scope : Option Text) (before : Option Node) (inside tail : List Node) :
    Site.ofNode scope before (.branch .scope (head ++ .branch .body inside :: tail)) =
      ((Site.ofNodes (Harvest.scopeName? (head ++ .branch .body [] :: tail)) none inside).1,
        scope) := by
  simp only [Site.ofNode, scopeName?_fill, inBody_fill h]

/-- **The rest of a tree does not change** with what is put into a gap: the sites in front and
behind, and the namespace that holds in the end, are the same for all that the gap holds. -/
theorem exists_ofNodes_fill (p : TreePlace) (scope : Option Text) :
    ∃ (first others : List Site) (last : Option Text), ∀ s, p.Holds scope s →
      Site.ofNodes scope none (p.fill s.stretch) = (first ++ s :: others, last) := by
  induction p generalizing scope with
  | here front back =>
    -- what is in the gap ends with a declaration, so that `back` is behind no comment of it
    refine ⟨(Site.ofNodes scope none front).1,
      (Site.ofNodes (Site.ofNodes scope none front).2 none back).1,
      (Site.ofNodes (Site.ofNodes scope none front).2 none back).2, fun s hs => ?_⟩
    have hscope : (Site.ofNodes scope none front).2 = s.scope := hs.scope_eq.symm
    have hfits : s.Fits front := hs.fits
    simp only [fill, Site.ofNodes_append scope none front, hscope, Option.or_none,
      hfits.ofNodes_stretch hs.isDeclared]
  | inside front form hform p back ih =>
    obtain ⟨first, others, last, h⟩ := ih (Site.ofNodes scope none front).2
    refine ⟨(Site.ofNodes scope none front).1 ++ first,
      others ++ (Site.ofNodes last none back).1, (Site.ofNodes last none back).2, fun s hs => ?_⟩
    simp only [fill, Site.ofNodes_append, Option.or_none, Site.ofNodes_cons, ofNode_inside hform,
      h s ⟨hs.scope_eq, hs.isDeclared, hs.fits⟩, Site.ofNodes_behind_branch,
      List.append_assoc, List.cons_append]
  | inScope front head hhead p tail back ih =>
    obtain ⟨first, others, last, h⟩ :=
      ih (Harvest.scopeName? (head ++ .branch .body [] :: tail))
    refine ⟨(Site.ofNodes scope none front).1 ++ first,
      others ++ (Site.ofNodes (Site.ofNodes scope none front).2 none back).1,
      (Site.ofNodes (Site.ofNodes scope none front).2 none back).2, fun s hs => ?_⟩
    simp only [fill, Site.ofNodes_append, Option.or_none, Site.ofNodes_cons, ofNode_inScope hhead,
      h s ⟨hs.scope_eq, hs.isDeclared, hs.fits⟩, Site.ofNodes_behind_branch,
      List.append_assoc, List.cons_append]

/-! ### The place of a site -/

/-- A declaration with the nodes around it is at a place. -/
theorem exists_of_isDeclared (scope : Option Text) (done : List Node) {n : Node}
    (hn : n.isDeclared = true) (back : List Node) (s : Site)
    (h : s ∈ (Site.ofNode (Site.ofNodes scope none done).2 done.getLast? n).1) :
    ∃ p : TreePlace, p.Holds scope s ∧ done ++ n :: back = p.fill s.stretch := by
  rw [Site.ofNode_of_isDeclared hn, List.mem_singleton] at h
  subst h
  obtain ⟨front, hfits, hstretch, hscope⟩ :=
    Site.exists_fits (Site.ofNodes scope none done).2 done n
  refine ⟨here front back, ⟨(hscope scope).symm, hn, hfits⟩, ?_⟩
  rw [fill, ← List.append_assoc, ← hstretch, List.append_assoc, List.singleton_append]

mutual

/-- A site of a node is the site of a declaration itself, or is at a place inside the node. -/
theorem exists_of_mem_ofNode (scope : Option Text) (done : List Node) (n : Node)
    (back : List Node) (s : Site)
    (h : s ∈ (Site.ofNode (Site.ofNodes scope none done).2 done.getLast? n).1) :
    ∃ p : TreePlace, p.Holds scope s ∧ done ++ n :: back = p.fill s.stretch := by
  match n with
  | .leaf _ => cases h
  | .branch form parts =>
    by_cases hform : form.isOpen = true
    · rw [ofNode_inside hform] at h
      obtain ⟨p, hp, hfill⟩ := exists_of_mem_ofNodes (Site.ofNodes scope none done).2 [] parts s h
      exact ⟨inside done form hform p back, ⟨hp.scope_eq, hp.isDeclared, hp.fits⟩,
        by rw [fill, ← hfill, List.nil_append]⟩
    · cases form with
      | function => exact exists_of_isDeclared scope done rfl back s h
      | classLike kind => exact exists_of_isDeclared scope done rfl back s h
      | imports => cases h
      | scope =>
        simp only [Site.ofNode] at h
        cases hbody : Site.inBody (Harvest.scopeName? parts) parts with
        | none =>
          rw [hbody] at h
          cases h
        | some sites =>
          rw [hbody] at h
          obtain ⟨head, tail, p, hhead, hp, hparts⟩ :=
            exists_of_mem_inBody (Harvest.scopeName? parts) parts sites hbody s h
          refine ⟨inScope done head hhead p tail back, ⟨?_, hp.isDeclared, hp.fits⟩, ?_⟩
          · rw [hp.scope_eq, scopeFrom, hparts, scopeName?_fill]
          · rw [fill, ← hparts]
      | _ => exact absurd rfl hform

/-- Every site of some nodes is at a place among them and those in front.  The comment of the first
of them is in front, which is why these have to be given. -/
theorem exists_of_mem_ofNodes (scope : Option Text) (done ns : List Node) (s : Site)
    (h : s ∈ (Site.ofNodes (Site.ofNodes scope none done).2 done.getLast? ns).1) :
    ∃ p : TreePlace, p.Holds scope s ∧ done ++ ns = p.fill s.stretch := by
  match ns with
  | [] => cases h
  | n :: ns =>
    rw [Site.ofNodes_cons, List.mem_append] at h
    cases h with
    | inl hfirst => exact exists_of_mem_ofNode scope done n ns s hfirst
    | inr hothers =>
      have hdone : (Site.ofNodes scope none (done ++ [n])).2 =
          (Site.ofNode (Site.ofNodes scope none done).2 done.getLast? n).2 := by
        rw [Site.ofNodes_append, Option.or_none]
        rfl
      obtain ⟨p, hp, hfill⟩ := exists_of_mem_ofNodes scope (done ++ [n]) ns s
        (by simpa only [hdone, List.getLast?_concat] using hothers)
      exact ⟨p, hp, by simpa using hfill⟩

theorem exists_of_mem_inBody (scope : Option Text) (ns : List Node) (sites : List Site)
    (h : Site.inBody scope ns = some sites) (s : Site) (hs : s ∈ sites) :
    ∃ (head tail : List Node) (p : TreePlace), (∀ n ∈ head, n.isForm .body = false) ∧
      p.Holds scope s ∧ ns = head ++ .branch .body (p.fill s.stretch) :: tail := by
  -- a node that is no body is one more part of the head
  have hnext : ∀ n ms, ns = n :: ms → n.isForm .body = false → Site.inBody scope ms = some sites →
      ∃ (head tail : List Node) (p : TreePlace), (∀ n ∈ head, n.isForm .body = false) ∧
        p.Holds scope s ∧ ns = head ++ .branch .body (p.fill s.stretch) :: tail := by
    intro n ms hns hn hms
    obtain ⟨head, tail, p, hhead, hp, hfill⟩ := exists_of_mem_inBody scope ms sites hms s hs
    exact ⟨n :: head, tail, p, by simpa [hn] using hhead, hp, by rw [hns, hfill]; rfl⟩
  match ns with
  | [] => cases h
  | .leaf l :: ms => exact hnext (.leaf l) ms rfl rfl h
  | .branch form parts :: ms =>
    cases form with
    | body =>
      cases h
      obtain ⟨p, hp, hfill⟩ := exists_of_mem_ofNodes scope [] parts s hs
      exact ⟨[], ms, p, by simp, hp, by rw [← hfill]; rfl⟩
    | _ => exact hnext _ ms rfl rfl h

end

/-- Every site of a tree is at a place. -/
theorem exists_of_mem_ofTree {tree : List Node} (h : s ∈ Site.ofTree tree) :
    ∃ p : TreePlace, p.Holds none s ∧ tree = p.fill s.stretch :=
  exists_of_mem_ofNodes none [] tree s h

end TreePlace

/-! ### Places in a class -/

/-- Where the first part that is not dropped stands, and that it stays there with other parts
behind it. -/
theorem exists_dropWhile_eq {p : Node → Bool} {ns rest : List Node} {n : Node}
    (h : ns.dropWhile p = n :: rest) :
    ∃ lead, ns = lead ++ n :: rest ∧ ∀ rest', (lead ++ n :: rest').dropWhile p = n :: rest' := by
  refine ⟨ns.takeWhile p, by rw [← h, List.takeWhile_append_dropWhile], fun rest' => ?_⟩
  have hn : p n = false := by
    have := List.head?_dropWhile_not p ns
    simpa [h] using this
  rw [List.dropWhile_append_of_pos fun m hm => List.mem_takeWhile_imp hm,
    List.dropWhile_cons_of_neg (by simp [hn])]

/-- Where the name of a class stands, and that it stays there with other parts behind it. -/
theorem Node.exists_fromName_eq {n title : Node} {rest : List Node}
    (h : n.fromName = title :: rest) :
    ∃ kind lead, n = .branch (.classLike kind) (lead ++ title :: rest) ∧
      ∀ rest', fromName (.branch (.classLike kind) (lead ++ title :: rest')) = title :: rest' := by
  match n with
  | .leaf _ => cases h
  | .branch form parts =>
    cases form with
    | classLike kind =>
      simp only [fromName] at h
      cases hword : parts.dropWhile (!·.isWord kind.word) with
      | nil => simp [hword] at h
      | cons word behind =>
        rw [hword, List.drop_one, List.tail_cons] at h
        obtain ⟨front, hfront, hstays⟩ := exists_dropWhile_eq hword
        obtain ⟨lead, hlead, hnamed⟩ := exists_dropWhile_eq h
        refine ⟨kind, front ++ word :: lead, by simp [hfront, hlead], fun rest' => ?_⟩
        simp only [fromName, List.append_assoc, List.cons_append, hstays, List.drop_one,
          List.tail_cons, hnamed]
    | _ => cases h

/-- A class with a gap between its braces. -/
structure ClassPlace where
  kind : ClassKind
  /-- The parts in front of the name. -/
  lead : List Node
  title : Node
  /-- The parts between the name and the braces. -/
  head : List Node
  front : List Node
  back : List Node
  tail : List Node
  titled : ∀ rest, Node.fromName (.branch (.classLike kind) (lead ++ title :: rest)) = title :: rest
  braceless : ∀ n ∈ head, n.isForm .members = false

namespace ClassPlace

/-- What is between the braces when the gap is filled. -/
def inside (q : ClassPlace) (ns : List Node) : List Node := q.front ++ (ns ++ q.back)

/-- The class with the gap filled. -/
def fill (q : ClassPlace) (ns : List Node) : Node :=
  .branch (.classLike q.kind)
    (q.lead ++ q.title :: (q.head ++ .branch .members (q.inside ns) :: q.tail))

/-- The site of a member may be put into the gap. -/
structure Holds (q : ClassPlace) (m : Site) : Prop where
  isMember : m.node.isMember = true
  fits : m.Fits q.front

theorem Holds.recommented {q : ClassPlace} (h : q.Holds s) (ht : s.Recommented t) : q.Holds t :=
  ⟨by cases ht <;> exact h.isMember, h.fits.recommented ht⟩

theorem isDeclared_fill (q : ClassPlace) (ns : List Node) : (q.fill ns).isDeclared = true := rfl

theorem fromName_fill (q : ClassPlace) (ns : List Node) :
    (q.fill ns).fromName = q.title :: (q.head ++ .branch .members (q.inside ns) :: q.tail) :=
  q.titled _

theorem find?_braces (q : ClassPlace) (ns : List Node) :
    (q.head ++ .branch .members (q.inside ns) :: q.tail).find? (·.isForm .members) =
      some (.branch .members (q.inside ns)) := by
  have hbraces : (Node.branch .members (q.inside ns)).isForm .members = true := rfl
  rw [List.find?_append, List.find?_eq_none.mpr fun n hn => by simp [q.braceless n hn],
    List.find?_cons_of_pos hbraces, Option.none_or]

theorem takeWhile_braces (q : ClassPlace) (ns : List Node) :
    (q.head ++ .branch .members (q.inside ns) :: q.tail).takeWhile (!·.isForm .members) =
      q.head := by
  rw [List.takeWhile_append_of_pos fun n hn => by simp [q.braceless n hn],
    List.takeWhile_cons_of_neg (by simp [Node.isForm]), List.append_nil]

theorem betweenBraces_fill (q : ClassPlace) (ns : List Node) :
    (q.fill ns).betweenBraces = q.inside ns := by
  rw [Node.betweenBraces, fromName_fill, List.drop_one, List.tail_cons, find?_braces]
  rfl

end ClassPlace

namespace Site

theorem among_append (scope : Option Text) (before : Option Node) (ns ms : List Node) :
    among scope before (ns ++ ms) =
      among scope before ns ++ among scope (ns.getLast?.or before) ms := by
  induction ns generalizing before with
  | nil => rfl
  | cons n ns ih =>
    simp only [List.cons_append, among, ih, Text.getLast?_cons_or, List.append_assoc]

theorem among_cons_of_isMember {n : Node} (h : n.isMember = true) (scope : Option Text)
    (before : Option Node) (ns : List Node) :
    among scope before (n :: ns) =
      ⟨scope, Node.commentBefore before, n⟩ :: among scope none ns := by
  have hbehind : among scope (some n) ns = among scope none ns := by
    match n, ns with
    | _, [] => rfl
    | .leaf _, _ => cases h
    | .branch _ _, _ :: _ => rfl
  rw [among, if_pos h, hbehind, List.singleton_append]

/-- What is found from a member on that fits behind some nodes. -/
theorem Fits.among_stretch {m : Site} (h : m.Fits done) (hnode : m.node.isMember = true)
    (back : List Node) :
    among m.scope done.getLast? (m.stretch ++ back) = m :: among m.scope none back := by
  obtain ⟨scope, comment, n⟩ := m
  cases comment with
  | none =>
    have hnear := h.nearest rfl
    simp only [stretch, Option.map_none, Option.toList_none, List.nil_append, List.cons_append,
      among_cons_of_isMember hnode, hnear]
  | some l =>
    have hl := h.isComment l rfl
    have hleaf : (Node.leaf l).isMember = false := rfl
    simp only [stretch, Option.map_some, Option.toList_some, List.cons_append, List.nil_append]
    rw [among, among_cons_of_isMember hnode, Node.commentBefore_leaf hl, hleaf]
    rfl

end Site

namespace ClassPlace

/-- **The rest of a class does not change** with what is put into a gap between its braces. -/
theorem exists_among_fill (q : ClassPlace) (scope : Option Text) :
    ∃ first others : List Site, ∀ m, q.Holds m → m.scope = scope →
      Site.among scope none (q.inside m.stretch) = first ++ m :: others := by
  refine ⟨Site.among scope none q.front, Site.among scope none q.back, fun m hm hscope => ?_⟩
  rw [inside, Site.among_append, Option.or_none, ← hscope, hm.fits.among_stretch hm.isMember]

/-- Every member among some nodes is between others that it fits behind. -/
theorem exists_of_mem_among (scope : Option Text) (done ns : List Node) {m : Site}
    (h : m ∈ Site.among scope done.getLast? ns) :
    ∃ front back, done ++ ns = front ++ (m.stretch ++ back) ∧ m.Fits front ∧
      m.node.isMember = true ∧ m.scope = scope := by
  induction ns generalizing done with
  | nil => cases h
  | cons n ns ih =>
    rw [Site.among, List.mem_append] at h
    rcases h with hfirst | hothers
    · split at hfirst
      · rename_i hn
        rw [List.mem_singleton] at hfirst
        subst hfirst
        obtain ⟨front, hfits, hstretch, -⟩ := Site.exists_fits scope done n
        refine ⟨front, ns, ?_, hfits, hn, rfl⟩
        rw [← List.append_assoc, ← hstretch, List.append_assoc, List.singleton_append]
      · cases hfirst
    · obtain ⟨front, back, hfill, hm⟩ :=
        ih (done ++ [n]) (by rwa [List.getLast?_concat])
      exact ⟨front, back, by rw [← hfill, List.append_assoc, List.singleton_append], hm⟩

/-- Every member of a class is at a place in it. -/
theorem exists_of_mem_members {m : Site} (h : m ∈ s.members) :
    ∃ q : ClassPlace, q.Holds m ∧ m.scope = s.scope ∧ s.node = q.fill m.stretch := by
  unfold Site.members Node.betweenBraces at h
  cases hname : s.node.fromName with
  | nil => simp [hname, Site.among] at h
  | cons title rest =>
    rw [hname, List.drop_one, List.tail_cons] at h
    obtain ⟨kind, lead, hnode, htitled⟩ := Node.exists_fromName_eq hname
    cases hbraces : rest.find? (·.isForm .members) with
    | none => simp [hbraces, Site.among] at h
    | some braces =>
      rw [hbraces] at h
      obtain ⟨hform, head, tail, hrest, hhead⟩ := List.find?_eq_some_iff_append.mp hbraces
      obtain ⟨front, back, hparts, hfits, hmember, hscope⟩ :=
        exists_of_mem_among s.scope [] braces.parts h
      obtain ⟨parts, rfl⟩ := Node.exists_of_isForm hform
      have hinside : parts = front ++ (m.stretch ++ back) := hparts
      refine ⟨⟨kind, lead, title, head, front, back, tail, htitled, ?_⟩, ⟨hmember, hfits⟩,
        hscope, ?_⟩
      · intro n hn
        simpa using hhead n hn
      · rw [hnode, hrest, hinside]
        rfl

end ClassPlace

end HintCheck
