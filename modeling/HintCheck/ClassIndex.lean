/-
**The classes of a project.**

All classes, interfaces, traits and enumerations of the analysed files, found by their full name
in any case of its letters.  A class above another one may be declared outside of these files; what
depends on it is unknown.

Main definitions:

* `HintCheck.ClassIndex` — the classes of a project;
* `HintCheck.ClassIndex.ancestors` — the classes and interfaces above a class;
* `HintCheck.ClassIndex.overrides` — whether a method is declared above its class;
* `HintCheck.ClassIndex.implements?` — whether a class is below an interface.

Main results:

* `HintCheck.ClassIndex.get?_isSome_iff` — the index answers for exactly its keys;
* `HintCheck.ClassIndex.length_unseen_lt` — each class that the walk meets is seen once.
-/

import HintCheck.ClassName
import HintCheck.Declaration

set_option relaxedAutoImplicit false
set_option autoImplicit false

namespace HintCheck

/-! ### The index -/

/-- What is known of a class. -/
structure ClassInfo where
  fullName : Text
  kind : ClassKind
  /-- The full name of the class that is extended. -/
  parent : Option Text
  /-- The full names of the interfaces. -/
  interfaces : List Text
  /-- The names of the methods in small letters. -/
  methods : List Text

namespace ClassInfo

/-- Whether a class declares a method. -/
def declares (c : ClassInfo) (method : Text) : Bool := c.methods.contains (Text.lowercase method)

/-- The names of the class and the interfaces right above. -/
def above (c : ClassInfo) : List Text := c.parent.toList ++ c.interfaces

/-- What is known of a class from its declaration in a file. -/
def ofDecl (imports : List (Text × Text)) (c : ClassDecl) : ClassInfo :=
  { fullName := c.fullName
    kind := c.kind
    parent := c.parent.map (ClassName.resolve c.scope imports)
    interfaces := c.interfaces.map (ClassName.resolve c.scope imports)
    methods := c.methods.map fun m => Text.lowercase m.signature.name }

end ClassInfo

/-- The classes of a project under their keys, the one that was added last in front. -/
structure ClassIndex where
  entries : List (Text × ClassInfo)

namespace ClassIndex

/-- No classes. -/
def empty : ClassIndex := ⟨[]⟩

/-- Adds a class; one of the same name gives way. -/
def insertClass (x : ClassIndex) (c : ClassInfo) : ClassIndex :=
  let key := ClassName.key c.fullName
  ⟨(key, c) :: x.entries.filter (·.1 != key)⟩

/-- Adds the classes of a file. -/
def insert (x : ClassIndex) (f : SourceFile) : ClassIndex :=
  f.classes.foldl (fun x c => x.insertClass (.ofDecl f.imports c)) x

/-- The classes of several files. -/
def ofFiles (fs : List SourceFile) : ClassIndex := fs.foldl insert empty

/-- The number of classes. -/
def size (x : ClassIndex) : Nat := x.entries.length

/-- The class of a key. -/
def get? (x : ClassIndex) (key : Text) : Option ClassInfo := x.entries.lookup key

/-- The class of a name. -/
def class? (x : ClassIndex) (name : Text) : Option ClassInfo := x.get? (ClassName.key name)

/-! ### The classes above a class -/

/-- The keys of a list that have not been seen. -/
def unseen (seen : List Text) (keys : List Text) : List Text := keys.filter (!seen.contains ·)

theorem unseen_cons (key : Text) (seen keys : List Text) :
    unseen (key :: seen) keys = (unseen seen keys).filter (· != key) := by
  simp only [unseen, List.filter_filter]
  congr 1
  funext k
  by_cases hk : k = key <;> simp [hk]

theorem length_unseen_lt {seen keys : List Text} {key : Text} (h : key ∈ keys)
    (hs : key ∉ seen) : (unseen (key :: seen) keys).length < (unseen seen keys).length := by
  rw [unseen_cons]
  exact List.length_filter_lt_length_iff_exists.2 ⟨key, by simp [unseen, h, hs], by simp⟩

theorem unseen_cons_of_not_mem {key : Text} {keys : List Text} (seen : List Text)
    (h : key ∉ keys) : unseen (key :: seen) keys = unseen seen keys := by
  rw [unseen_cons]
  refine List.filter_eq_self.2 fun k hk => ?_
  have : k ∈ keys := (List.mem_filter.1 hk).1
  simp only [bne_iff_ne, ne_eq]
  rintro rfl
  exact h this

/-- The keys of the classes of an index. -/
def keys (x : ClassIndex) : List Text := x.entries.map (·.1)

theorem get?_isSome_iff {x : ClassIndex} {key : Text} :
    (x.get? key).isSome = true ↔ key ∈ x.keys := by
  simp only [get?, keys]
  induction x.entries with
  | nil => simp
  | cons e es ih =>
    obtain ⟨k, info⟩ := e
    by_cases h : key = k
    · simp [h]
    · have h' : (key == k) = false := by simpa using h
      simp [List.lookup_cons, h', h, ih]

/-- The names met on the way up from a stack of names, each class once, with the names above it
taken from the last to the first. -/
def climb (x : ClassIndex) (seen : List Text) : List Text → List Text
  | [] => []
  | name :: stack =>
    if seen.contains (ClassName.key name) then climb x seen stack
    else
      match _h : x.class? name with
      | some info =>
        name :: climb x (ClassName.key name :: seen) (info.above.reverse ++ stack)
      | none => name :: climb x (ClassName.key name :: seen) stack
termination_by stack => ((unseen seen x.keys).length, stack.length)
decreasing_by
  -- a name that was seen before only leaves the stack
  · exact Prod.Lex.right _ (by simp)
  -- a class of the index is seen for the first time
  · next hs =>
    have hk : ClassName.key name ∈ x.keys := by
      rw [← get?_isSome_iff]
      simp only [class?] at _h
      simp [_h]
    exact Prod.Lex.left _ _ (length_unseen_lt hk (by simpa using hs))
  -- a class outside of the index has nothing above it
  · have hk : ClassName.key name ∉ x.keys := fun hk => by
      have := get?_isSome_iff.2 hk
      simp only [class?] at _h
      simp [_h] at this
    rw [unseen_cons_of_not_mem seen hk]
    exact Prod.Lex.right _ (by simp)

/-- The names of the classes and interfaces above a class. -/
def ancestors (x : ClassIndex) (c : ClassInfo) : List Text := climb x [] c.above.reverse

/-! ### Questions -/

/-- Whether a method is declared above its class too. -/
inductive Override where
  | yes
  | no
  /-- Some class above is declared outside of the project. -/
  | unknown
  deriving DecidableEq, Repr

/-- Whether some name belongs to no class of the index. -/
def leavesProject (x : ClassIndex) (names : List Text) : Bool :=
  names.any fun name => (x.class? name).isNone

/-- Whether a method of a class is declared above it.  What a trait is put into is not known. -/
def overrides (x : ClassIndex) (name method : Text) : Override :=
  match x.class? name with
  | none => .unknown
  | some c =>
    if c.kind = .trait then .unknown
    else
      let above := x.ancestors c
      if above.any fun n => (x.class? n).any (·.declares method) then .yes
      else if x.leavesProject above then .unknown
      else .no

/-- Whether the last segments of two names agree, in any case of their ASCII letters. -/
def sameShortName (a b : Text) : Bool :=
  Text.sameLetters (ClassName.lastSegment a) (ClassName.lastSegment b)

/-- Whether a class is below an interface, which is known by the last segment of its name; nothing
when that depends on classes outside of the project. -/
def implements? (x : ClassIndex) (name interface : Text) : Option Bool :=
  match x.class? name with
  | none => none
  | some c =>
    let above := x.ancestors c
    if above.any (sameShortName · interface) then some true
    else if x.leavesProject above then none
    else some false

end ClassIndex

end HintCheck
