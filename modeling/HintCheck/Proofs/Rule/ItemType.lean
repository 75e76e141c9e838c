/-
**No class that can be iterated escapes.**

A class that implements `IteratorAggregate` has to tell the type of its items, unless the class
that it extends is known to implement the interface too; then that one has to.  This module shows
that no class passes the duty on for ever: where no class extends itself in the end, some class on
the way up from parent to parent has the tag, or it is reported when its own file is checked.

Main definitions:

* `HintCheck.ParentStep` — one step up, from a declared class to its parent;
* `HintCheck.OrderlyParents` — every class is declared once, no class is above itself, and parents
  are classes;
* `HintCheck.OwesItemType` — a class has to tell the type of its items and does not;
* `HintCheck.CheckedAbove` — a class on the way up has the tag, or owes it.

Main results:

* `HintCheck.wellFoundedOn_parents` — the way up ends;
* `HintCheck.run_iterator` — what the rule reports where nothing is silenced;
* `HintCheck.exists_checked_above` — **no class that can be iterated escapes.**
-/

import Mathlib.Order.WellFoundedSet
import HintCheck.Proofs.ClassIndex.Growth
import HintCheck.Rule.Iterator

set_option relaxedAutoImplicit false
set_option autoImplicit false

namespace HintCheck

open ClassIndex Relation

/-! ### Parents -/

/-- The key of a declared class. -/
def keyOf (d : SourceFile × ClassDecl) : Text := ClassName.key d.2.fullName

/-- The full name of the class that a declared class extends. -/
def parentOf? (d : SourceFile × ClassDecl) : Option Text :=
  d.2.parent.map (ClassName.resolve d.2.scope d.1.imports)

/-- One step up, from the key of a declared class to the key of its parent. -/
def ParentStep (fs : List SourceFile) (a b : Text) : Prop :=
  ∃ d, declared? fs a = some d ∧ ∃ parent, parentOf? d = some parent ∧ ClassName.key parent = b

/-- Every class is declared once, no class is its own parent in one or more steps, and a parent that
is declared is a class. -/
structure OrderlyParents (fs : List SourceFile) : Prop where
  distinct : ((declarations fs).map keyOf).Nodup
  acyclic : ∀ key, ¬TransGen (ParentStep fs) key key
  ordinary : ∀ a b d, ParentStep fs a b → declared? fs b = some d → d.2.kind = .ordinary

variable {fs : List SourceFile}

/-- Where every class is declared once, its declaration holds for its key. -/
theorem declared?_keyOf (h : ((declarations fs).map keyOf).Nodup) {d : SourceFile × ClassDecl}
    (hd : d ∈ declarations fs) : declared? fs (keyOf d) = some d := by
  cases hfound : declared? fs (keyOf d) with
  | none =>
      have hnone := List.find?_eq_none.1 hfound d (List.mem_reverse.2 hd)
      simp [hasKey, keyOf] at hnone
  | some e =>
      obtain ⟨he, hkey⟩ := mem_of_declared? hfound
      rw [List.inj_on_of_nodup_map h he hd hkey]

/-- The way up ends. -/
theorem wellFoundedOn_parents (h : ∀ key, ¬TransGen (ParentStep fs) key key) :
    {key | key ∈ (declarations fs).map keyOf}.WellFoundedOn
      fun b a => TransGen (ParentStep fs) a b := by
  have : IsStrictOrder Text fun b a => TransGen (ParentStep fs) a b :=
    { irrefl := h
      trans := fun _ _ _ hba hcb => hcb.trans hba }
  exact (List.finite_toSet _).wellFoundedOn

/-- Where each step up goes down in some measure, no class is above itself. -/
theorem acyclic_of_measure (measure : Text → Nat)
    (h : ∀ a b, ParentStep fs a b → measure b < measure a) (key : Text) :
    ¬TransGen (ParentStep fs) key key := by
  have hdown : ∀ {a b}, TransGen (ParentStep fs) a b → measure b < measure a := by
    intro a b hab
    induction hab with
    | single hstep => exact h _ _ hstep
    | tail _ hstep ih => exact (h _ _ hstep).trans ih
  exact fun hcycle => (hdown hcycle).false

/-! ### What is reported -/

/-- A declared class has to tell the type of its items and does not. -/
def OwesItemType (x : ClassIndex) (d : SourceFile × ClassDecl) : Prop :=
  d.2.needsItemType d.1.imports x = true

/-- Some class on the way up from a key, the one of that key included, has the tag or owes it. -/
def CheckedAbove (fs : List SourceFile) (key : Text) : Prop :=
  ∃ e ∈ declarations fs, ReflTransGen (ParentStep fs) key (keyOf e) ∧
    (e.2.tellsItemType = true ∨ OwesItemType (ofFiles fs) e)

/-- Where nothing is silenced, the rule gives one diagnostic for each class that owes the tag. -/
theorem run_iterator (severity : Severity) (f : SourceFile) (x : ClassIndex) :
    (Rule.iterator severity).run { f with suppressions := .none } x =
      (f.classes.filter fun c => c.needsItemType f.imports x).map fun c =>
        (Report.start f (Rule.iterator severity).name severity).diagnostic
          (c.line, itemTypeMessage) := by
  have hnone : (Report.start { f with suppressions := .none } (Rule.iterator severity).name
      severity).suppressions = .none := rfl
  rw [Rule.run]
  exact (Report.diagnostics_addAll hnone _).trans (by rw [List.map_map]; rfl)

/-- A class that is known to be below an interface is declared. -/
theorem declared_of_implements? {name interface : Text}
    (h : (ofFiles fs).implements? name interface = some true) :
    ∃ d, declared? fs (ClassName.key name) = some d := by
  obtain ⟨c, hc⟩ := class?_isSome_of_implements? h
  rw [class?, get?_ofFiles] at hc
  obtain ⟨d, hd, -⟩ := Option.map_eq_some_iff.1 hc
  exact ⟨d, hd⟩

/-- A class that inherits the interface has a parent that is declared, and known to be below the
interface as well. -/
theorem exists_parent_of_inheritsIteration (h : OrderlyParents fs) {d : SourceFile × ClassDecl}
    (hd : d ∈ declarations fs) (hin : d.2.inheritsIteration d.1.imports (ofFiles fs) = true) :
    ∃ e ∈ declarations fs, ParentStep fs (keyOf d) (keyOf e) ∧ e.2.kind = .ordinary ∧
      (ofFiles fs).implements? e.2.fullName iteratorInterface = some true := by
  obtain ⟨written, hwritten, himp⟩ := (Option.any_eq_true _ _).1 hin
  have himp := beq_iff_eq.1 himp
  obtain ⟨e, he⟩ := declared_of_implements? himp
  obtain ⟨hmem, hkey⟩ := mem_of_declared? he
  have hstep : ParentStep fs (keyOf d) (keyOf e) :=
    ⟨d, declared?_keyOf h.distinct hd, _, by rw [parentOf?, hwritten]; rfl, hkey.symm⟩
  refine ⟨e, hmem, hstep, h.ordinary _ _ e hstep (declared?_keyOf h.distinct hmem), ?_⟩
  rw [implements?_eq_of_key hkey, himp]

/-- On the way up from a class that is known to be below the interface, some class has the tag or
owes it. -/
theorem checkedAbove_of_implements (h : OrderlyParents fs) {d : SourceFile × ClassDecl}
    (hd : d ∈ declarations fs) (hkind : d.2.kind = .ordinary)
    (himp : (ofFiles fs).implements? d.2.fullName iteratorInterface = some true) :
    CheckedAbove fs (keyOf d) := by
  -- by induction from the end of the way up: where the duty is passed on, the parent settles it
  refine (wellFoundedOn_parents h.acyclic).induction (x := keyOf d)
    (P := fun key => ∀ d ∈ declarations fs, keyOf d = key → d.2.kind = .ordinary →
      (ofFiles fs).implements? d.2.fullName iteratorInterface = some true → CheckedAbove fs key)
    (List.mem_map_of_mem hd) ?_ d hd rfl hkind himp
  rintro _ - ih d hd rfl hkind himp
  by_cases hin : d.2.inheritsIteration d.1.imports (ofFiles fs) = true
  · obtain ⟨p, hp, hstep, hpkind, hpimp⟩ := exists_parent_of_inheritsIteration h hd hin
    obtain ⟨e, he, hreach, hchecked⟩ :=
      ih (keyOf p) (List.mem_map_of_mem hp) (.single hstep) p hp rfl hpkind hpimp
    exact ⟨e, he, hreach.head hstep, hchecked⟩
  · refine ⟨d, hd, .refl, ?_⟩
    by_cases htells : d.2.tellsItemType = true
    · exact Or.inl htells
    · exact Or.inr (by simp [OwesItemType, ClassDecl.needsItemType, ClassDecl.isIterable, hkind,
        hin, himp, htells])

/-- A class that owes the tag has no parent that is known to be below the interface. -/
theorem not_implements_parent_of_owes {x : ClassIndex} {d : SourceFile × ClassDecl}
    (h : OwesItemType x d) {parent : Text} (hparent : parentOf? d = some parent) :
    x.implements? parent iteratorInterface ≠ some true := by
  intro himp
  obtain ⟨written, hwritten, rfl⟩ := Option.map_eq_some_iff.1 hparent
  have hin : d.2.inheritsIteration d.1.imports x = true := by
    rw [ClassDecl.inheritsIteration, hwritten, Option.any_some, himp]
    rfl
  simp [OwesItemType, ClassDecl.needsItemType, hin] at h

/-- **No class that can be iterated escapes.**  Above each class that is known to be below the
interface, itself included, there is a class that has the tag or owes it; a class that owes it has
no parent that is known to be below the interface; and where nothing is silenced, the rule reports
of each file just those classes that owe it. -/
theorem exists_checked_above (h : OrderlyParents fs) :
    (∀ d ∈ declarations fs, d.2.kind = .ordinary →
      (ofFiles fs).implements? d.2.fullName iteratorInterface = some true →
      CheckedAbove fs (keyOf d)) ∧
    (∀ d ∈ declarations fs, OwesItemType (ofFiles fs) d → ∀ parent, parentOf? d = some parent →
      (ofFiles fs).implements? parent iteratorInterface ≠ some true) ∧
    ∀ severity, ∀ f ∈ fs,
      (Rule.iterator severity).run { f with suppressions := .none } (ofFiles fs) =
        (f.classes.filter fun c => c.needsItemType f.imports (ofFiles fs)).map fun c =>
          (Report.start f (Rule.iterator severity).name severity).diagnostic
            (c.line, itemTypeMessage) := by
  refine ⟨?_, ?_, ?_⟩
  · intro d hd hkind himp
    exact checkedAbove_of_implements h hd hkind himp
  · intro d _ howes parent hparent
    exact not_implements_parent_of_owes howes hparent
  · intro severity f _
    exact run_iterator severity f (ofFiles fs)

/-- A class that can be iterated; its parent is declared nowhere. -/
def items : ClassDecl :=
  bareClass "Items".toList .ordinary (some "Bag".toList) [iteratorInterface]

/-- A class that extends it. -/
def invoices : ClassDecl := bareClass "Invoices".toList .ordinary (some "Items".toList) []

/-- A file for each of the two. -/
def itemFiles : List SourceFile := [classFile [invoices], classFile [items]]

theorem orderlyParents_itemFiles : OrderlyParents itemFiles where
  distinct := by decide +kernel
  acyclic := by
    -- the keys get shorter on the way up
    refine acyclic_of_measure List.length ?_
    rintro a b ⟨d, hd, parent, hparent, rfl⟩
    obtain ⟨hmem, rfl⟩ := mem_of_declared? hd
    have hshorter : ∀ d ∈ declarations itemFiles, ∀ parent ∈ parentOf? d,
        (ClassName.key parent).length < (keyOf d).length := by decide +kernel
    exact hshorter d hmem parent hparent
  ordinary := by
    intro a b d _ hd
    have hordinary : ∀ d ∈ declarations itemFiles, d.2.kind = .ordinary := by decide +kernel
    exact hordinary d (mem_of_declared? hd).1

/-- The duty of one class is its parent's, which owes the tag and is reported. -/
theorem exists_checked_above_of_invoices :
    OrderlyParents itemFiles ∧ CheckedAbove itemFiles (ClassName.key "Invoices".toList) ∧
    (ofFiles itemFiles).implements? "Bag".toList iteratorInterface ≠ some true ∧
    ((Rule.iterator .warning).run (classFile [items]) (ofFiles itemFiles)).map (·.line) = [1] := by
  obtain ⟨c, hclass, habove⟩ : ∃ c, (ofFiles itemFiles).class? invoices.fullName = some c ∧
      (ofFiles itemFiles).ancestors c = ["Items".toList, iteratorInterface, "Bag".toList] :=
    ⟨_, rfl, climb_of_climbWithin? (n := 3) (by decide +kernel)⟩
  have himp : (ofFiles itemFiles).implements? invoices.fullName iteratorInterface = some true := by
    rw [implements?_eq_true_iff hclass, habove]
    decide +kernel
  have howes : items.needsItemType [] (ofFiles itemFiles) = true := by decide +kernel
  obtain ⟨hchecked, hparent, hreported⟩ := exists_checked_above orderlyParents_itemFiles
  have hmem : ∀ c ∈ [invoices, items], (classFile [c], c) ∈ declarations itemFiles := by
    simp [declarations, itemFiles, classFile]
  refine ⟨orderlyParents_itemFiles, ?_, ?_, ?_⟩
  · exact hchecked _ (hmem invoices (by simp)) rfl himp
  · exact hparent _ (hmem items (by simp)) howes _ rfl
  · have hkept : (classFile [items]).classes.filter
        (fun c => c.needsItemType (classFile [items]).imports (ofFiles itemFiles)) = [items] := by
      simp [classFile, howes]
    have hrun := hreported .warning (classFile [items]) (by simp [itemFiles])
    rw [hkept] at hrun
    exact congrArg (List.map (·.line)) hrun

end HintCheck
