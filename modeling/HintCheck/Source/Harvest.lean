/-
**The declarations of a source text.**

The tree of a text is gone through in order.  A namespace holds for what follows it, or for what is
in its braces.  The insides of functions and of classes with names are not looked at for further
declarations, but those of all other expressions are.

Main definitions:

* `HintCheck.ImportClause.ofNode` — the imported names of a node, under their aliases;
* `HintCheck.ClassDecl.ofNode` — a class with its members;
* `HintCheck.Harvest.ofNodes` — the declarations below some nodes;
* `HintCheck.SourceFile.ofTree`, `HintCheck.SourceFile.ofSource` — a file with its declarations.

Main results:

* `HintCheck.Harvest.ofNodes_cons` — the declarations of nodes are put together in order.
-/

import HintCheck.ClassName
import HintCheck.Source.Member
import HintCheck.Source.Outline

set_option relaxedAutoImplicit false
set_option autoImplicit false

namespace HintCheck

/-! ### Imports -/

namespace ImportClause

/-- Whether a node begins the import of functions or of constants. -/
def importsNoClass (n : Node) : Bool := n.isWord "function" || n.isWord "const"

/-- The alias in small letters and the name of a clause; names of a group share a beginning. -/
def read? (shared : Option Text) (clause : List Node) : Option (Text × Text) :=
  let clause := clause.dropWhile fun n => n.isComment || importsNoClass n
  let written := Node.textOf (clause.takeWhile (!·.isWord "as"))
  let renamed := ((clause.dropWhile (!·.isWord "as")).drop 1).find? Node.isAnyWord
  if written.isEmpty then none
  else
    let name := ClassName.relative (match shared with
      | some text => Text.dropEndWhile (· == '\\') text ++ '\\' :: written
      | none => written)
    let short := match renamed with
      | some n => n.text
      | none => ClassName.lastSegment name
    some (Text.lower short, name)

/-- The imported names of a node, under their aliases.  Functions and constants do not count. -/
def ofNode (n : Node) : List (Text × Text) :=
  let clauses := (n.parts.drop 1).filter (!·.isSign ";")
  if clauses.head?.any importsNoClass then []
  else
    match clauses.find? (·.isForm .brackets) with
    | some group =>
      let shared := clauses.takeWhile (!·.isForm .brackets)
      let listed := group.parts.filter fun n => !n.isSign "\x7b" && !n.isSign "\x7d"
      (Node.pieces (·.isSign ",") listed).filterMap
        (read? (some (ClassName.relative (Node.textOf shared))))
    | none => (Node.pieces (·.isSign ",") clauses).filterMap (read? none)

/-- Adds an import; a later one of the same alias wins. -/
def add (imports : List (Text × Text)) (clause : Text × Text) : List (Text × Text) :=
  clause :: imports.filter (·.1 != clause.1)

end ImportClause

/-! ### Classes -/

/-- The word that begins a declaration of a kind. -/
def ClassKind.word : ClassKind → String
  | .ordinary => "class"
  | .interface => "interface"
  | .trait => "trait"
  | .enumeration => "enum"

/-- A name with the namespace in front. -/
def ClassName.qualify (scope : Option Text) (name : Text) : Text :=
  match scope with
  | some space => space ++ '\\' :: name
  | none => name

/-- Whether a node begins a clause of the head of a class. -/
def Node.beginsClause (n : Node) : Bool := n.isWord "extends" || n.isWord "implements"

/-- The class names that follow a word in the head of a class. -/
def Node.namesBehind (word : String) (head : List Node) : List Text :=
  let clause := ((head.dropWhile (!·.isWord word)).drop 1).takeWhile (!·.beginsClause)
  ((Node.pieces (·.isSign ",") clause).map Node.textOf).filter (!·.isEmpty)

/-- The class that a node declares in a namespace, and what could not be read in it.  A class keeps
its members when its comment cannot be read. -/
def ClassDecl.ofNode (scope : Option Text) (before : Option Node) (kind : ClassKind) (n : Node) :
    List ClassDecl × List ReadFailure :=
  let behind := (n.parts.dropWhile (!·.isWord kind.word)).drop 1
  match behind.dropWhile (!·.isAnyWord) with
  | [] => ([], [])
  | title :: rest =>
    let head := rest.takeWhile (!·.isForm .members)
    let bases := Node.namesBehind "extends" head
    let members := match rest.find? (·.isForm .members) with
      | some m => Members.ofNodes none m.parts
      | none => {}
    let doc := Node.docBefore before
    let failures := match doc with
      | .ok _ => []
      | .error failure => [failure]
    ([{ line := title.line
        kind
        name := title.text
        fullName := ClassName.qualify scope title.text
        scope
        doc := match doc with
          | .ok d => d
          | .error _ => none
        parent := if kind = .interface then none else bases.head?
        interfaces :=
          (if kind = .interface then bases else []) ++ Node.namesBehind "implements" head
        methods := members.methods
        properties := members.properties
        constants := members.constants }], failures ++ members.failures)

/-! ### Everything -/

/-- What a stretch of a source text declares. -/
structure Harvest where
  /-- The first namespace. -/
  scope : Option Text := none
  /-- The imports, in order. -/
  imports : List (Text × Text) := []
  functions : List FunctionDecl := []
  classes : List ClassDecl := []
  failures : List ReadFailure := []

namespace Harvest

/-- What two stretches declare, one behind the other. -/
def append (a b : Harvest) : Harvest :=
  ⟨a.scope.or b.scope, a.imports ++ b.imports, a.functions ++ b.functions, a.classes ++ b.classes,
    a.failures ++ b.failures⟩

instance : Append Harvest := ⟨append⟩

/-- What a function contributes. -/
def ofFunction (before : Option Node) (n : Node) : Harvest :=
  match FunctionDecl.ofNode before n with
  | .ok f => { functions := [f] }
  | .error failure => { failures := [failure] }

/-- What a class contributes. -/
def ofClass (scope : Option Text) (before : Option Node) (kind : ClassKind) (n : Node) : Harvest :=
  let r := ClassDecl.ofNode scope before kind n
  { classes := r.1, failures := r.2 }

/-- The name of a namespace, unless it is the one without a name. -/
def scopeName? (parts : List Node) : Option Text :=
  match Node.textOf ((parts.drop 1).filter fun n => !n.isSign ";" && !n.isForm .body) with
  | [] => none
  | name => some name

mutual

/-- What a node declares in a namespace, and the namespace behind it. -/
def ofNode (scope : Option Text) (before : Option Node) : Node → Harvest × Option Text
  | .leaf _ => ({}, scope)
  | .branch .imports parts => ({ imports := ImportClause.ofNode (.branch .imports parts) }, scope)
  | .branch .function parts => (ofFunction before (.branch .function parts), scope)
  | .branch (.classLike kind) parts =>
    (ofClass scope before kind (.branch (.classLike kind) parts), scope)
  | .branch .scope parts =>
    let name := scopeName? parts
    match inBody name parts with
    | some inside => (({ scope := name } : Harvest) ++ inside, scope)
    | none => ({ scope := name }, name)
  | .branch _ parts => ofNodes scope none parts

/-- What nodes that follow each other declare. -/
def ofNodes (scope : Option Text) (before : Option Node) : List Node → Harvest × Option Text
  | [] => ({}, scope)
  | n :: ns =>
    let first := ofNode scope before n
    let others := ofNodes first.2 (some n) ns
    (first.1 ++ others.1, others.2)

/-- What the first body among some nodes declares. -/
def inBody (scope : Option Text) : List Node → Option Harvest
  | [] => none
  | .branch .body inside :: _ => some (ofNodes scope none inside).1
  | _ :: ns => inBody scope ns

end

theorem ofNodes_cons (scope : Option Text) (before : Option Node) (n : Node) (ns : List Node) :
    (ofNodes scope before (n :: ns)).1 =
      (ofNode scope before n).1 ++ (ofNodes (ofNode scope before n).2 (some n) ns).1 := rfl

end Harvest

/-- The file with a path and a source text, whose tree is given. -/
def SourceFile.ofTree (path source : Text) (tree : List Node) : SourceFile :=
  let found := (Harvest.ofNodes none none tree).1
  { path
    source
    scope := found.scope
    imports := found.imports.foldl ImportClause.add []
    functions := found.functions
    classes := found.classes
    failures := found.failures
    suppressions := Suppressions.ofSource source }

/-- The file with a path and a source text. -/
def SourceFile.ofSource (path source : Text) : SourceFile :=
  ofTree path source (Node.ofSource source)

end HintCheck
