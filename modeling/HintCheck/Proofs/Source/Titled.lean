/-
**The classes of a text have names.**

A tree may hold a class without a name, but the tree of a text holds none.  The outline of a text
begins a class only when a name is in sight, and from there on nothing but the braces of the class
ends it; so the name is among its parts.  The invariant of a class under way is that its first word
is among the parts so far, and that its name is there as well or is the next thing to come.

Main definitions:

* `HintCheck.Node.Titled` — all classes have names, those inside other classes aside;
* `HintCheck.Outline.CodeState.Orderly` — the invariant of the outline.

Main results:

* `HintCheck.Outline.orderly_stepCode`, `HintCheck.Outline.orderly_stepPair` — what one step keeps;
* `HintCheck.Node.titledAll_ofSource` — **the classes of a text have names.**
-/

import HintCheck.Proofs.Source.Place

set_option relaxedAutoImplicit false
set_option autoImplicit false

namespace HintCheck

/-! ### Classes with names -/

namespace Node

/-- The parts of a class hold its name. -/
def HasTitle (kind : ClassKind) (parts : List Node) : Prop :=
  fromName (.branch (.classLike kind) parts) ≠ []

mutual

/-- All classes of a node have names, those inside other classes aside. -/
def Titled : Node → Prop
  | .leaf _ => True
  | .branch (.classLike kind) parts => HasTitle kind parts
  | .branch _ parts => TitledAll parts

/-- All classes of several nodes have names. -/
def TitledAll : List Node → Prop
  | [] => True
  | n :: ns => Titled n ∧ TitledAll ns

end

theorem titledAll_iff {ns : List Node} : TitledAll ns ↔ ∀ n ∈ ns, n.Titled := by
  induction ns with
  | nil => simp [TitledAll]
  | cons n ns ih => simp [TitledAll, ih]

theorem titled_leaf (l : Lexeme) : Titled (.leaf l) := trivial

theorem titled_branch {form : Form} {parts : List Node} (h : ∀ n ∈ parts, n.Titled)
    (hclass : ∀ kind, form = .classLike kind → HasTitle kind parts) :
    Titled (.branch form parts) := by
  cases form with
  | classLike kind => exact hclass kind rfl
  | _ => exact titledAll_iff.mpr h

/-- More parts do not take the name away. -/
theorem HasTitle.append {kind : ClassKind} {parts : List Node} (h : HasTitle kind parts)
    (more : List Node) : HasTitle kind (parts ++ more) := by
  obtain ⟨title, rest, hname⟩ := List.exists_cons_of_ne_nil h
  obtain ⟨_, lead, hnode, hstays⟩ := exists_fromName_eq hname
  cases hnode
  rw [HasTitle, List.append_assoc, List.cons_append, hstays]
  exact List.cons_ne_nil _ _

/-- A word behind the first word of a class is its name, unless another is. -/
theorem hasTitle_concat {kind : ClassKind} {parts : List Node} {n : Node}
    (h : ∃ m ∈ parts, m.isWord kind.word = true) (hn : n.isAnyWord = true) :
    HasTitle kind (parts ++ [n]) := by
  obtain ⟨m, hm, hword⟩ := h
  cases hdrop : parts.dropWhile (!·.isWord kind.word) with
  | nil =>
    have hnone := List.dropWhile_eq_nil_iff.mp hdrop m hm
    simp [hword] at hnone
  | cons word behind =>
    obtain ⟨lead, rfl, hstays⟩ := exists_dropWhile_eq hdrop
    rw [HasTitle, fromName, List.append_assoc, List.cons_append, hstays, List.drop_one,
      List.tail_cons, Ne, List.dropWhile_eq_nil_iff]
    intro hnone
    simpa [hn] using hnone n (by simp)

end Node

namespace Outline

open Nest Node

variable {s : CodeState} {l : Lexeme} {rest : List Nest}

/-! ### The invariant -/

/-- What waits at a place in a list of statements and expressions has names, and a class under way
has its first word and its name, or its name comes next. -/
structure CodeState.Orderly (s : CodeState) (rest : List Nest) : Prop where
  titled : ∀ n ∈ s.held, n.Titled
  begun : ∀ kind, s.mode = .header (.classLike kind) →
    ∃ n ∈ s.held.reverse, n.isWord kind.word = true
  title : ∀ kind, s.mode = .header (.classLike kind) →
    HasTitle kind s.held.reverse ∨ (upcoming? rest).any (·.isAnyWord) = true

theorem orderly_of_no_class (h : ∀ n ∈ s.held, n.Titled)
    (hmode : ∀ kind, s.mode ≠ .header (.classLike kind)) : s.Orderly rest :=
  ⟨h, fun kind hk => absurd hk (hmode kind), fun kind hk => absurd hk (hmode kind)⟩

/-- Parts that are given backwards, with one more. -/
theorem titled_reverse_concat {held : List Node} (h : ∀ n ∈ held, n.Titled) {n : Node}
    (hn : n.Titled) : ∀ m ∈ held.reverse ++ [n], m.Titled := by
  intro m hm
  rcases List.mem_append.mp hm with hm | hm
  · exact h m (List.mem_reverse.mp hm)
  · rw [List.mem_singleton.mp hm]
    exact hn

theorem titled_close {form : Form} (hform : ∀ kind, form ≠ .classLike kind) {held : List Node}
    (h : ∀ n ∈ held, n.Titled) (l : Lexeme) : ∀ n ∈ close form held l, n.Titled := by
  have hbranch : ∀ parts : List Node, (∀ n ∈ parts, n.Titled) → Titled (.branch form parts) :=
    fun parts hparts => titled_branch hparts fun kind hk => absurd hk (hform kind)
  unfold close
  split
  · simpa using hbranch _ (titled_reverse_concat h (titled_leaf l))
  · simpa [titled_leaf] using hbranch held.reverse (by simpa using h)

theorem upcoming?_comment (h : l.isComment = true) :
    upcoming? (.one l :: rest) = upcoming? rest :=
  List.find?_cons_of_neg (by simpa [Nest.isComment] using h)

theorem upcoming?_of_not_isComment {n : Nest} (h : n.isComment = false) :
    upcoming? (n :: rest) = some n :=
  List.find?_cons_of_pos (by simpa using h)

/-- A class that is begun is begun with its first word, and with its name in sight. -/
theorem of_classKind? {kind : ClassKind} {previous : Option Lexeme}
    (h : classKind? l previous rest = some kind) :
    l.isWord kind.word = true ∧ (upcoming? rest).any (·.isAnyWord) = true := by
  simp only [classKind?] at h
  split at h
  · cases h
  · rename_i hsight
    refine ⟨?_, ?_⟩
    · split_ifs at h with hclass hinterface htrait henum
      · cases h; exact hclass
      · cases h; exact hinterface
      · cases h; exact htrait
      · cases h; exact (Bool.and_eq_true_iff.mp henum).1
    · rw [Bool.or_eq_true, not_or] at hsight
      cases hnext : upcoming? rest with
      | none => simp [hnext] at hsight
      | some n =>
        rw [hnext] at hsight
        simp only [Option.any_some, Bool.not_eq_true', Bool.not_eq_false,
          Bool.and_eq_true] at hsight ⊢
        exact hsight.2.1.1

/-- A lexeme that becomes a part of a declaration under way. -/
theorem CodeState.Orderly.push (h : s.Orderly (.one l :: rest)) (previous : Option Lexeme) :
    CodeState.Orderly { s with held := .leaf l :: s.held, previous } rest := by
  refine ⟨by simpa [titled_leaf] using h.titled, fun kind hk => ?_, fun kind hk => ?_⟩
  · obtain ⟨n, hn, hword⟩ := h.begun kind hk
    exact ⟨n, by rw [List.reverse_cons]; exact List.mem_append_left _ hn, hword⟩
  · rw [List.reverse_cons]
    rcases h.title kind hk with hname | hnext
    · exact .inl (hname.append _)
    · cases hl : l.isComment with
      | true =>
        rw [upcoming?_comment hl] at hnext
        exact .inr hnext
      | false =>
        have hone : Nest.isComment (.one l) = false := hl
        rw [upcoming?_of_not_isComment hone] at hnext
        exact .inl (hasTitle_concat (h.begun kind hk) hnext)

/-- What one step keeps at a lexeme. -/
theorem orderly_stepCode (h : s.Orderly (.one l :: rest)) :
    (∀ n ∈ (stepCode s l rest).1, n.Titled) ∧ (stepCode s l rest).2.Orderly rest := by
  have hpushed : ∀ n ∈ Node.leaf l :: s.held, n.Titled := by
    simpa [titled_leaf l] using h.titled
  have hpush := h.push (if l.isComment then s.previous else some l)
  unfold stepCode
  cases hmode : s.mode with
  | imports =>
    rw [hmode] at hpush
    dsimp only
    split
    · exact ⟨titled_close (by simp) h.titled l, orderly_of_no_class (by simp) (by simp)⟩
    · exact ⟨by simp, hpush⟩
  | header form =>
    rw [hmode] at hpush
    dsimp only
    split
    · exact ⟨titled_close (by simp) h.titled l, orderly_of_no_class (by simp) (by simp)⟩
    · exact ⟨by simp, hpush⟩
  | free =>
    -- a class is the one declaration that is begun with something to show
    have hfree : ∀ kind, s.mode ≠ .header (.classLike kind) := by simp [hmode]
    dsimp only
    split_ifs with hcomment hheld hfunction hscope himport hmodifier
    · exact ⟨by simp [titled_leaf], orderly_of_no_class h.titled hfree⟩
    · exact ⟨by simp, orderly_of_no_class hpushed (by simp)⟩
    · exact ⟨by simp, orderly_of_no_class hpushed (by simp)⟩
    · exact ⟨by simp, orderly_of_no_class hpushed (by simp)⟩
    · exact ⟨by simp, orderly_of_no_class hpushed (by simp)⟩
    · exact ⟨by simp, orderly_of_no_class hpushed (by simp)⟩
    · cases hkind : classKind? l s.previous rest with
      | some kind =>
        obtain ⟨hword, hsight⟩ := of_classKind? hkind
        refine ⟨by simp, hpushed, fun k hk => ?_, fun k hk => .inr hsight⟩
        cases hk
        exact ⟨.leaf l, by simp, hword⟩
      | none =>
        exact ⟨titled_reverse_concat h.titled (titled_leaf l),
          orderly_of_no_class (by simp) (by simp)⟩

/-- What one step keeps at a pair of brackets: no name of a class is such a pair, so that a class
has its name when its braces come. -/
theorem orderly_stepPair {opening : Lexeme} {inside : List Nest} {closing : Option Lexeme}
    (h : s.Orderly (.pair opening inside closing :: rest)) {n : Node} (hn : n.Titled) :
    (∀ m ∈ (stepPair s opening n closing).1, m.Titled) ∧
      (stepPair s opening n closing).2.Orderly rest := by
  have hpushed : ∀ m ∈ n :: s.held, m.Titled := by simpa [hn] using h.titled
  have htitle : ∀ kind, s.mode = .header (.classLike kind) → HasTitle kind s.held.reverse := by
    intro kind hkind
    rcases h.title kind hkind with hname | hnext
    · exact hname
    · rw [upcoming?_of_not_isComment rfl] at hnext
      cases hnext
  have hpush : ∀ previous, CodeState.Orderly { s with held := n :: s.held, previous } rest := by
    refine fun previous => ⟨hpushed, fun kind hkind => ?_, fun kind hkind => ?_⟩
    · obtain ⟨m, hm, hword⟩ := h.begun kind hkind
      exact ⟨m, by rw [List.reverse_cons]; exact List.mem_append_left _ hm, hword⟩
    · rw [List.reverse_cons]
      exact .inl ((htitle kind hkind).append _)
  unfold stepPair
  cases hmode : s.mode with
  | imports =>
    rw [hmode] at hpush
    exact ⟨by simp, hpush _⟩
  | header form =>
    rw [hmode] at hpush htitle
    dsimp only
    split
    · have hbranch : Titled (.branch form (s.held.reverse ++ [n])) :=
        titled_branch (titled_reverse_concat h.titled hn) fun kind hkind =>
          (htitle kind (by rw [hkind])).append _
      exact ⟨by simpa using hbranch, orderly_of_no_class (by simp) (by simp)⟩
    · exact ⟨by simp, hpush _⟩
  | free =>
    dsimp only
    split_ifs
    · exact ⟨by simp, orderly_of_no_class hpushed (by simp)⟩
    · exact ⟨titled_reverse_concat h.titled hn, orderly_of_no_class (by simp) (by simp)⟩
    · exact ⟨titled_reverse_concat h.titled hn, orderly_of_no_class (by simp) (by simp)⟩

/-! ### Members -/

theorem ne_classLike_of_formOf? {mode : MemberMode} {form : Form} (h : formOf? mode = some form)
    (kind : ClassKind) : form ≠ .classLike kind := by
  rintro rfl
  cases mode <;> cases h

/-- No member is a class, so that its parts are all that matters. -/
theorem titled_stepMember {s : MemberState} (h : ∀ n ∈ s.held, n.Titled) (l : Lexeme) :
    (∀ n ∈ (stepMember s l).1, n.Titled) ∧ ∀ n ∈ (stepMember s l).2.held, n.Titled := by
  have hpushed : ∀ n ∈ Node.leaf l :: s.held, n.Titled := by simpa [titled_leaf l] using h
  unfold stepMember
  split
  · split
    · exact ⟨by simp [titled_leaf], h⟩
    · exact ⟨by simp, hpushed⟩
  · split
    · cases hform : formOf? s.mode with
      | some form => exact ⟨titled_close (ne_classLike_of_formOf? hform) h l, by simp⟩
      | none =>
        rw [List.reverse_cons]
        exact ⟨titled_reverse_concat h (titled_leaf l), by simp⟩
    · exact ⟨by simp, hpushed⟩

theorem titled_stepMemberPair {s : MemberState} (h : ∀ n ∈ s.held, n.Titled) (opening : Lexeme)
    (closing : Option Lexeme) {n : Node} (hn : n.Titled) :
    (∀ m ∈ (stepMemberPair s opening n closing).1, m.Titled) ∧
      ∀ m ∈ (stepMemberPair s opening n closing).2.held, m.Titled := by
  have hpushed : ∀ m ∈ n :: s.held, m.Titled := by simpa [hn] using h
  have hmember : ∀ m ∈ member s (n :: s.held).reverse, m.Titled := by
    rw [List.reverse_cons]
    have hparts := titled_reverse_concat h hn
    unfold member
    cases hform : formOf? s.mode with
    | some form =>
      have hbranch := titled_branch hparts fun kind hk =>
        absurd hk (ne_classLike_of_formOf? hform kind)
      simpa using hbranch
    | none => exact hparts
  unfold stepMemberPair
  dsimp only
  split
  · split
    · exact ⟨by simp, hpushed⟩
    · exact ⟨by simp, hpushed⟩
    · exact ⟨hmember, by simp⟩
  · exact ⟨by simp, hpushed⟩

/-! ### All nodes of a text -/

theorem formOfBraces_ne_classLike (s : CodeState) (kind : ClassKind) :
    formOfBraces s ≠ .classLike kind := by
  unfold formOfBraces
  split <;> (try split) <;> simp

theorem formOfMemberBraces_ne_classLike (s : MemberState) (kind : ClassKind) :
    formOfMemberBraces s ≠ .classLike kind := by
  unfold formOfMemberBraces
  split <;> (try split) <;> simp

/-- A pair of brackets, with what is between them, is no class. -/
theorem titled_pair {form : Form} (hform : ∀ kind, form ≠ .classLike kind) {parts : List Node}
    (h : ∀ n ∈ parts, n.Titled) (opening : Lexeme) (closing : Option Lexeme) :
    Titled (.branch (if opening.isSign "\x7b" then form else .brackets)
      (.leaf opening :: parts ++ (closing.map Node.leaf).toList)) := by
  refine titled_branch (fun n hn => ?_) fun kind hk => ?_
  · rcases List.mem_append.mp hn with hn | hn
    · rcases List.mem_cons.mp hn with rfl | hn
      · exact titled_leaf opening
      · exact h n hn
    · obtain ⟨l, -, rfl⟩ := Option.map_eq_some_iff.mp (Option.mem_toList.mp hn)
      exact titled_leaf l
  · split at hk
    · exact absurd hk (hform kind)
    · cases hk

mutual

/-- From an orderly place on all classes have names.  What is between brackets begins anew. -/
theorem titled_code (s : CodeState) (ns : List Nest) (h : s.Orderly ns) :
    ∀ n ∈ code s ns, n.Titled := by
  match ns with
  | [] => simpa [code] using h.titled
  | .one l :: rest =>
    obtain ⟨hnodes, hrest⟩ := orderly_stepCode h
    intro n hn
    rw [code, List.mem_append] at hn
    rcases hn with hn | hn
    · exact hnodes n hn
    · exact titled_code _ rest hrest n hn
  | .pair opening inside closing :: rest =>
    have hparts : ∀ form, ∀ n ∈ (if form = Form.members then members {} inside
        else code {} inside), n.Titled := by
      intro form
      split
      · exact titled_members {} inside (by simp)
      · exact titled_code {} inside (orderly_of_no_class (by simp) (by simp))
    obtain ⟨hnodes, hrest⟩ := orderly_stepPair h
      (titled_pair (formOfBraces_ne_classLike s) (hparts _) opening closing)
    intro n hn
    rw [code, List.mem_append] at hn
    rcases hn with hn | hn
    · exact hnodes n hn
    · exact titled_code _ rest hrest n hn

theorem titled_members (s : MemberState) (ns : List Nest) (h : ∀ n ∈ s.held, n.Titled) :
    ∀ n ∈ members s ns, n.Titled := by
  match ns with
  | [] => simpa [members] using h
  | .one l :: rest =>
    obtain ⟨hnodes, hrest⟩ := titled_stepMember h l
    intro n hn
    rw [members, List.mem_append] at hn
    rcases hn with hn | hn
    · exact hnodes n hn
    · exact titled_members _ rest hrest n hn
  | .pair opening inside closing :: rest =>
    have hparts : ∀ form, ∀ n ∈ (if form = Form.members then members {} inside
        else code {} inside), n.Titled := by
      intro form
      split
      · exact titled_members {} inside (by simp)
      · exact titled_code {} inside (orderly_of_no_class (by simp) (by simp))
    obtain ⟨hnodes, hrest⟩ := titled_stepMemberPair h opening closing
      (titled_pair (formOfMemberBraces_ne_classLike s) (hparts _) opening closing)
    intro n hn
    rw [members, List.mem_append] at hn
    rcases hn with hn | hn
    · exact hnodes n hn
    · exact titled_members _ rest hrest n hn

end

end Outline

/-- **The classes of a text have names.** -/
theorem Node.titledAll_ofSource (source : Text) : TitledAll (ofSource source) :=
  titledAll_iff.mpr (Outline.titled_code {} _ (Outline.orderly_of_no_class (by simp) (by simp)))

/-! ### At sites -/

theorem TreePlace.titled_of_fill {p : TreePlace} {ns : List Node}
    (h : Node.TitledAll (p.fill ns)) : Node.TitledAll ns := by
  induction p with
  | here front back =>
    rw [fill, Node.titledAll_iff] at h
    exact Node.titledAll_iff.mpr fun n hn =>
      h n (List.mem_append_right _ (List.mem_append_left _ hn))
  | inside front form hform p back ih =>
    rw [fill, Node.titledAll_iff] at h
    have hnode := h (.branch form (p.fill ns)) (by simp)
    apply ih
    cases form with
    | function | classLike _ | scope | imports => cases hform
    | _ => exact hnode
  | inScope front head hhead p tail back ih =>
    rw [fill, Node.titledAll_iff] at h
    have hscope : Node.TitledAll (head ++ .branch .body (p.fill ns) :: tail) :=
      h (.branch .scope _) (by simp)
    rw [Node.titledAll_iff] at hscope
    exact ih (hscope (.branch .body (p.fill ns)) (by simp))

/-- At the sites of a text all classes have names. -/
theorem Site.fromName_ne_nil_of_mem_ofSource {source : Text} {s : Site} {kind : ClassKind}
    (hs : s ∈ ofTree (Node.ofSource source)) (hkind : s.node.isForm (.classLike kind) = true) :
    s.node.fromName ≠ [] := by
  obtain ⟨p, -, htree⟩ := TreePlace.exists_of_mem_ofTree hs
  have htitled := Node.titledAll_ofSource source
  rw [htree] at htitled
  have hnode : s.node.Titled :=
    Node.titledAll_iff.mp (TreePlace.titled_of_fill htitled) s.node (by simp [stretch])
  obtain ⟨parts, hparts⟩ := Node.exists_of_isForm hkind
  rw [hparts] at hnode ⊢
  exact hnode

end HintCheck
