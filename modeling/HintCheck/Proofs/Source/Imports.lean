/-
**Imports and namespaces.**

A file has one table of imports, and an import that comes later takes the place of an earlier one
with the same alias, whatever namespace either of them stands in.  A name that a class is declared
with is therefore resolved by the imports of the namespace of the class, unless the last import of
its alias in the whole file stands in another namespace.

Main definitions:

* `HintCheck.PlacedImport` — an import with the namespace it stands in, and
  `HintCheck.PlacedImport.ofTree`, the imports of a tree;
* `HintCheck.PlacedImport.last?` — the import that holds for an alias;
* `HintCheck.PlacedImport.Overruled` — an import of another namespace holds for a name.

Main results:

* `HintCheck.PlacedImport.imports_ofTree` — the table of a file is made of these imports, and
  `HintCheck.PlacedImport.lookup_imports`, the last one of an alias holds;
* `HintCheck.PlacedImport.resolve_of_overruled` — an overruled name is what the other namespace
  imports;
* `HintCheck.PlacedImport.infoOf_eq_of_within` — **what is known of a class depends on the imports
  of its namespace only**, unless a name is overruled.
-/

import HintCheck.Proofs.ClassIndex.Ancestors
import HintCheck.Proofs.Source.Place

set_option relaxedAutoImplicit false
set_option autoImplicit false

namespace HintCheck

/-! ### The table of imports -/

namespace ImportClause

/-- The last import of an alias holds. -/
theorem lookup_foldl_add (clauses table : List (Text × Text)) (short : Text) :
    (clauses.foldl add table).lookup short =
      ((clauses.reverse.find? (·.1 == short)).map (·.2)).or (table.lookup short) := by
  induction clauses generalizing table with
  | nil => simp
  | cons clause clauses ih =>
      obtain ⟨other, target⟩ := clause
      rw [List.foldl_cons, ih, List.reverse_cons, List.find?_append]
      cases clauses.reverse.find? (·.1 == short) with
      | some found => simp
      | none =>
          by_cases h : other = short
          · simp [add, h]
          · have hkey : (short == other) = false := by simpa using Ne.symm h
            simp [add, List.lookup_cons, h, hkey, ClassIndex.lookup_filter_of_ne (Ne.symm h)]

end ImportClause

/-! ### Imports with their namespaces -/

/-- An import with the namespace it stands in. -/
structure PlacedImport where
  scope : Option Text
  /-- The alias, in small letters. -/
  short : Text
  target : Text
  deriving DecidableEq

namespace PlacedImport

/-- The clause of an import. -/
def clause (i : PlacedImport) : Text × Text := (i.short, i.target)

/-- The imports of a node that stands in a namespace. -/
def ofClauses (scope : Option Text) (n : Node) : List PlacedImport :=
  (ImportClause.ofNode n).map fun clause => ⟨scope, clause.1, clause.2⟩

mutual

/-- The imports below a node in a namespace, and the namespace behind it. -/
def ofNode (scope : Option Text) : Node → List PlacedImport × Option Text
  | .leaf _ => ([], scope)
  | .branch .imports parts => (ofClauses scope (.branch .imports parts), scope)
  | .branch .function _ => ([], scope)
  | .branch (.classLike _) _ => ([], scope)
  | .branch .scope parts =>
    let name := Harvest.scopeName? parts
    match inBody name parts with
    | some inside => (inside, scope)
    | none => ([], name)
  | .branch _ parts => ofNodes scope parts

/-- The imports of nodes that follow each other. -/
def ofNodes (scope : Option Text) : List Node → List PlacedImport × Option Text
  | [] => ([], scope)
  | n :: ns =>
    let first := ofNode scope n
    let others := ofNodes first.2 ns
    (first.1 ++ others.1, others.2)

/-- The imports of the first body among some nodes. -/
def inBody (scope : Option Text) : List Node → Option (List PlacedImport)
  | [] => none
  | .branch .body inside :: _ => some (ofNodes scope inside).1
  | _ :: ns => inBody scope ns

end

/-- The imports of a tree, in order. -/
def ofTree (tree : List Node) : List PlacedImport := (ofNodes none tree).1

/-- The imports of a tree that stand in a namespace. -/
def within (scope : Option Text) (tree : List Node) : List PlacedImport :=
  (ofTree tree).filter fun i => i.scope = scope

theorem map_clause_ofClauses (scope : Option Text) (n : Node) :
    (ofClauses scope n).map clause = ImportClause.ofNode n := by
  rw [ofClauses, List.map_map]
  exact List.map_id _

/-- A function imports nothing. -/
theorem imports_ofFunction (before : Option Node) (n : Node) :
    (Harvest.ofFunction before n).imports = [] := by
  unfold Harvest.ofFunction
  split <;> rfl

mutual

/-- Behind a node the same namespace holds for those who read everything and for those who look for
imports, and both find the same imports. -/
theorem imports_ofNode (scope : Option Text) (before : Option Node) : ∀ n : Node,
    (Harvest.ofNode scope before n).2 = (ofNode scope n).2 ∧
      (Harvest.ofNode scope before n).1.imports = (ofNode scope n).1.map clause
  | .leaf _ => ⟨rfl, rfl⟩
  | .branch .imports _ => ⟨rfl, (map_clause_ofClauses scope _).symm⟩
  | .branch .function _ => ⟨rfl, imports_ofFunction before _⟩
  | .branch (.classLike _) _ => ⟨rfl, rfl⟩
  | .branch .scope parts => by
    have hbody := imports_inBody (Harvest.scopeName? parts) parts
    simp only [Harvest.ofNode, ofNode]
    generalize Harvest.inBody (Harvest.scopeName? parts) parts = read at hbody
    generalize inBody (Harvest.scopeName? parts) parts = found at hbody
    cases hbody with
    | none => exact ⟨rfl, rfl⟩
    | some hinside => exact ⟨rfl, hinside⟩
  | .branch .brackets parts => imports_ofNodes scope none parts
  | .branch .body parts => imports_ofNodes scope none parts
  | .branch .members parts => imports_ofNodes scope none parts
  | .branch .method parts => imports_ofNodes scope none parts
  | .branch .property parts => imports_ofNodes scope none parts
  | .branch .constant parts => imports_ofNodes scope none parts

/-- Nodes that follow each other have the imports that are found among them. -/
theorem imports_ofNodes (scope : Option Text) (before : Option Node) : ∀ ns : List Node,
    (Harvest.ofNodes scope before ns).2 = (ofNodes scope ns).2 ∧
      (Harvest.ofNodes scope before ns).1.imports = (ofNodes scope ns).1.map clause
  | [] => ⟨rfl, rfl⟩
  | n :: ns => by
    obtain ⟨hscope, hfirst⟩ := imports_ofNode scope before n
    obtain ⟨hbehind, hothers⟩ := imports_ofNodes (ofNode scope n).2 (some n) ns
    simp only [Harvest.ofNodes, ofNodes, hscope, List.map_append]
    exact ⟨hbehind, by rw [← hfirst, ← hothers]; rfl⟩

/-- So has the first body among some nodes. -/
theorem imports_inBody (scope : Option Text) : ∀ ns : List Node,
    Option.Rel (fun h found => h.imports = found.map clause) (Harvest.inBody scope ns)
      (inBody scope ns)
  | [] => .none
  | .leaf _ :: ns => imports_inBody scope ns
  | .branch form parts :: ns => by
    cases form with
    | body => exact .some (imports_ofNodes scope none parts).2
    | _ => exact imports_inBody scope ns

end

/-- The table of a file is made of the imports of its tree. -/
theorem imports_ofTree (path source : Text) (tree : List Node) :
    (SourceFile.ofTree path source tree).imports =
      ((ofTree tree).map clause).foldl ImportClause.add [] :=
  congrArg (List.foldl ImportClause.add []) (imports_ofNodes none none tree).2

/-! ### The import that holds -/

/-- The import that holds for an alias: the last one. -/
def last? (imports : List PlacedImport) (short : Text) : Option PlacedImport :=
  imports.reverse.find? (·.short == short)

/-- In the table of a file, an alias stands for the last import of it. -/
theorem lookup_imports (path source : Text) (tree : List Node) (short : Text) :
    (SourceFile.ofTree path source tree).imports.lookup short =
      (last? (ofTree tree) short).map (·.target) := by
  rw [imports_ofTree, ImportClause.lookup_foldl_add, ← List.map_reverse, List.find?_map, last?]
  simp [Function.comp_def, clause]

/-- What is found first is still found first when others are left out. -/
theorem find?_filter_of_forall {α : Type} {p q : α → Bool} {xs : List α}
    (h : ∀ a ∈ xs.find? q, p a = true) : (xs.filter p).find? q = xs.find? q := by
  induction xs with
  | nil => rfl
  | cons a xs ih =>
      by_cases hq : q a = true
      · rw [List.find?_cons_of_pos hq] at h ⊢
        rw [List.filter_cons_of_pos (h a rfl), List.find?_cons_of_pos hq]
      · rw [List.find?_cons_of_neg hq] at h ⊢
        rw [← ih h, List.filter_cons]
        split
        · rw [List.find?_cons_of_neg hq]
        · rfl

/-- When the last import of an alias stands in a namespace, it is the last one there. -/
theorem last?_within {scope : Option Text} {tree : List Node} {short : Text}
    (h : ∀ i ∈ last? (ofTree tree) short, i.scope = scope) :
    last? (within scope tree) short = last? (ofTree tree) short := by
  rw [last?, within, ← List.filter_reverse]
  exact find?_filter_of_forall fun i hi => decide_eq_true (h i hi)

/-! ### Names -/

/-- The alias that a written name begins with. -/
def shortOf (written : Text) : Text := Text.lower (written.takeWhile (· != '\\'))

/-- An import of another namespace holds for a name that is written in a namespace. -/
def Overruled (scope : Option Text) (tree : List Node) (written : Text) : Prop :=
  written.head? ≠ some '\\' ∧ ∃ i ∈ last? (ofTree tree) (shortOf written), i.scope ≠ scope

/-- A name is resolved through its alias, and not at all with a separator in front. -/
theorem resolve_congr {scope : Option Text} {table table' : List (Text × Text)} {written : Text}
    (h : written.head? = some '\\' ∨
      table.lookup (shortOf written) = table'.lookup (shortOf written)) :
    ClassName.resolve scope table written = ClassName.resolve scope table' written := by
  unfold ClassName.resolve
  split
  · rfl
  · next hother =>
    have hlookup := h.resolve_left fun hhead => by
      obtain ⟨rest, rfl⟩ := List.head?_eq_some_iff.1 hhead
      exact hother rest rfl
    simp only [shortOf] at hlookup
    rw [hlookup]

variable {path source path' source' : Text} {tree tree' : List Node} {scope : Option Text}
  {written : Text}

/-- An overruled name is what the import of the other namespace says. -/
theorem resolve_of_overruled (h : Overruled scope tree written) :
    ∃ i ∈ last? (ofTree tree) (shortOf written), i.scope ≠ scope ∧
      ClassName.resolve scope (SourceFile.ofTree path source tree).imports written =
        i.target ++ written.dropWhile (· != '\\') := by
  obtain ⟨hhead, i, hi, hscope⟩ := h
  have hlookup := lookup_imports path source tree (shortOf written)
  rw [Option.mem_def.1 hi, shortOf] at hlookup
  refine ⟨i, hi, hscope, ?_⟩
  unfold ClassName.resolve
  split
  · exact absurd rfl hhead
  · rw [hlookup]
    rfl

/-- A name that is not overruled is resolved by the imports of its namespace. -/
theorem resolve_eq_of_within (hwithin : within scope tree = within scope tree')
    (h : ¬Overruled scope tree written) (h' : ¬Overruled scope tree' written) :
    ClassName.resolve scope (SourceFile.ofTree path source tree).imports written =
      ClassName.resolve scope (SourceFile.ofTree path' source' tree').imports written := by
  refine resolve_congr (Classical.or_iff_not_imp_left.2 fun hhead => ?_)
  have hown : ∀ {t : List Node}, ¬Overruled scope t written →
      last? (within scope t) (shortOf written) = last? (ofTree t) (shortOf written) := by
    intro t ht
    refine last?_within fun i hi => Classical.byContradiction fun hscope => ?_
    exact ht ⟨hhead, i, hi, hscope⟩
  rw [lookup_imports, lookup_imports, ← hown h, ← hown h', hwithin]

/-! ### Classes -/

/-- The classes of a file are those of its sites. -/
theorem classes_ofTree (path source : Text) (tree : List Node) :
    (SourceFile.ofTree path source tree).classes =
      (Site.ofTree tree).flatMap fun s => s.alone.classes :=
  (SourceFile.ofTree_consistsOf path source tree).classes.trans (List.flatMap_map ..)

/-- A class of a node is declared in the namespace of the node. -/
theorem fullName_ofNode {scope : Option Text} {before : Option Node} {kind : ClassKind} {n : Node}
    {c : ClassDecl} (hc : c ∈ (ClassDecl.ofNode scope before kind n).1) :
    c.scope = scope ∧ c.fullName = ClassName.qualify scope c.name := by
  simp only [ClassDecl.ofNode] at hc
  split at hc
  · cases hc
  · rw [List.mem_singleton.1 hc]
    exact ⟨rfl, rfl⟩

/-- The full name of a class depends on its namespace only. -/
theorem fullName_of_mem_alone {s : Site} (hs : s ∈ Site.ofTree tree) {c : ClassDecl}
    (hc : c ∈ s.alone.classes) :
    c.scope = s.scope ∧ c.fullName = ClassName.qualify s.scope c.name := by
  obtain ⟨_, hplace, -⟩ := TreePlace.exists_of_mem_ofTree hs
  have hdeclared := hplace.isDeclared
  rw [Site.alone_eq] at hc
  match hnode : s.node with
  | .leaf _ =>
    rw [hnode] at hdeclared
    cases hdeclared
  | .branch form parts =>
    rw [hnode] at hc hdeclared
    cases form with
    | classLike kind => exact fullName_ofNode hc
    | function =>
      simp only [Harvest.ofNode, Harvest.ofFunction] at hc
      split at hc <;> cases hc
    | _ => cases hdeclared

/-- What is known of a class follows from what its names are resolved to. -/
theorem infoOf_congr {f f' : SourceFile} {c : ClassDecl}
    (h : ∀ written ∈ c.parent.toList ++ c.interfaces,
      ClassName.resolve c.scope f.imports written =
        ClassName.resolve c.scope f'.imports written) :
    ClassIndex.infoOf (f, c) = ClassIndex.infoOf (f', c) := by
  have hparent : c.parent.map (ClassName.resolve c.scope f.imports) =
      c.parent.map (ClassName.resolve c.scope f'.imports) :=
    Option.map_congr fun w hw => h w (by simp [Option.mem_def.1 hw])
  have hinterfaces : c.interfaces.map (ClassName.resolve c.scope f.imports) =
      c.interfaces.map (ClassName.resolve c.scope f'.imports) :=
    List.map_congr_left fun w hw => h w (by simp [hw])
  simp only [ClassIndex.infoOf, ClassInfo.ofDecl, hparent, hinterfaces]

/-- **What is known of a class depends on the imports of its namespace only**, and so does each
name that it is declared with, unless the name is overruled; then it is what the import of the other
namespace says. -/
theorem infoOf_eq_of_within (hsites : Site.ofTree tree = Site.ofTree tree') {s : Site}
    (hs : s ∈ Site.ofTree tree) (hwithin : within s.scope tree = within s.scope tree')
    {c : ClassDecl} (hc : c ∈ s.alone.classes) :
    let f := SourceFile.ofTree path source tree
    let f' := SourceFile.ofTree path' source' tree'
    c ∈ f.classes ∧ c ∈ f'.classes ∧ c.fullName = ClassName.qualify s.scope c.name ∧
      (∀ written ∈ c.parent.toList ++ c.interfaces,
        (¬Overruled s.scope tree written → ¬Overruled s.scope tree' written →
          ClassName.resolve c.scope f.imports written =
            ClassName.resolve c.scope f'.imports written) ∧
        (Overruled s.scope tree written →
          ∃ i ∈ last? (ofTree tree) (shortOf written), i.scope ≠ s.scope ∧
            ClassName.resolve c.scope f.imports written =
              i.target ++ written.dropWhile (· != '\\'))) ∧
      ((∀ written ∈ c.parent.toList ++ c.interfaces,
          ¬Overruled s.scope tree written ∧ ¬Overruled s.scope tree' written) →
        ClassIndex.infoOf (f, c) = ClassIndex.infoOf (f', c)) := by
  intro f f'
  obtain ⟨hscope, hname⟩ := fullName_of_mem_alone hs hc
  have hmem : c ∈ f.classes := by
    rw [classes_ofTree]
    exact List.mem_flatMap_of_mem hs hc
  have hmem' : c ∈ f'.classes := by
    rw [classes_ofTree]
    exact List.mem_flatMap_of_mem (hsites ▸ hs) hc
  refine ⟨hmem, hmem', hname, fun written _ => ⟨fun h h' => ?_, fun h => ?_⟩, fun h => ?_⟩
  · rw [hscope]
    exact resolve_eq_of_within hwithin h h'
  · rw [hscope]
    exact resolve_of_overruled h
  · refine infoOf_congr fun written hw => ?_
    rw [hscope]
    exact resolve_eq_of_within hwithin (h written hw).1 (h written hw).2

/-! ### Two namespaces -/

/-- A lexeme behind a space. -/
def lexeme (kind : LexemeKind) (text : String) : Node :=
  .leaf { kind, gap := [' '], text := text.toList, line := 1 }

/-- An import under an alias. -/
def useNode (target short : String) : Node :=
  .branch .imports [lexeme .word "use", lexeme .word target, lexeme .word "as", lexeme .word short,
    lexeme .sign ";"]

/-- A class below an interface. -/
def classNode (name interface : String) : Node :=
  .branch (.classLike .ordinary) [lexeme .word "class", lexeme .word name,
    lexeme .word "implements", lexeme .word interface,
    .branch .members [lexeme .sign "\x7b", lexeme .sign "\x7d"]]

/-- A namespace with statements in braces. -/
def spaceNode (name : String) (inside : List Node) : Node :=
  .branch .scope [lexeme .word "namespace", lexeme .word name,
    .branch .body (lexeme .sign "\x7b" :: inside ++ [lexeme .sign "\x7d"])]

/-- Two namespaces, each with an import and a class.  The alias of the second import is left
open. -/
def twoSpaces (short : String) : List Node :=
  [spaceNode "A" [useNode "IteratorAggregate" "Rows", classNode "First" "Rows"],
    spaceNode "B" [useNode "Countable" short, classNode "Second" "Rows"]]

/-- The file with these two namespaces. -/
def twoSpacesFile (short : String) : SourceFile := .ofTree [] [] (twoSpaces short)

/-- The alias does not matter to where the classes stand. -/
theorem sites_twoSpaces (short short' : String) :
    Site.ofTree (twoSpaces short) = Site.ofTree (twoSpaces short') := rfl

/-- An alias that the first namespace does not use does not matter to its class. -/
theorem infoOf_of_two_aliases :
    ∃ s ∈ Site.ofTree (twoSpaces "Lines"), s.scope = some "A".toList ∧
      ∃ c ∈ s.alone.classes, ClassIndex.infoOf (twoSpacesFile "Lines", c) =
        ClassIndex.infoOf (twoSpacesFile "Cells", c) := by
  have hclass : ∃ s ∈ Site.ofTree (twoSpaces "Lines"), s.scope = some "A".toList ∧
      ∃ c ∈ s.alone.classes, ∀ written ∈ c.parent.toList ++ c.interfaces,
        written = "Rows".toList := by
    decide +kernel
  have hown : ∀ short ∈ ["Lines", "Cells"],
      ∀ i ∈ last? (ofTree (twoSpaces short)) "rows".toList, i.scope = some "A".toList := by
    decide +kernel
  have hwithin : within (some "A".toList) (twoSpaces "Lines") =
      within (some "A".toList) (twoSpaces "Cells") := by
    decide +kernel
  obtain ⟨s, hs, hscope, c, hc, hnames⟩ := hclass
  have hfree : ∀ short ∈ ["Lines", "Cells"], ∀ written ∈ c.parent.toList ++ c.interfaces,
      ¬Overruled s.scope (twoSpaces short) written := by
    rintro short hshort written hw ⟨-, i, hi, hne⟩
    rw [hnames written hw] at hi
    exact hne ((hown short hshort i hi).trans hscope.symm)
  obtain ⟨-, -, -, -, hsame⟩ := @infoOf_eq_of_within [] [] [] [] (twoSpaces "Lines")
    (twoSpaces "Cells") (sites_twoSpaces _ _) s hs (by rw [hscope, hwithin]) c hc
  exact ⟨s, hs, hscope, c, hc, hsame fun written hw =>
    ⟨hfree "Lines" (by simp) written hw, hfree "Cells" (by simp) written hw⟩⟩

/-- The same alias in the second namespace changes what the class of the first one is below. -/
theorem infoOf_of_one_alias :
    Site.ofTree (twoSpaces "Rows") = Site.ofTree (twoSpaces "Lines") ∧
      within (some "A".toList) (twoSpaces "Rows") = within (some "A".toList) (twoSpaces "Lines") ∧
      ∃ s ∈ Site.ofTree (twoSpaces "Rows"), s.scope = some "A".toList ∧
        ∃ c ∈ s.alone.classes,
          (ClassIndex.infoOf (twoSpacesFile "Rows", c)).interfaces = ["Countable".toList] ∧
          (ClassIndex.infoOf (twoSpacesFile "Lines", c)).interfaces =
            ["IteratorAggregate".toList] :=
  ⟨sites_twoSpaces _ _, by decide +kernel, by decide +kernel⟩

end PlacedImport

end HintCheck
