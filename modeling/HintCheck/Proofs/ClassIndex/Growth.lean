/-
**Adding files to a project.**

An index that knows more classes than another one answers more questions, and the definite answers
of the smaller one should stay.  A negative answer does: it was given because everything above the
class is known, so that the walk in the larger index takes the same way.  A positive answer about a
method does, because a class that was reached is reached still, perhaps on another way.

A positive answer about an interface depends on names and not on keys.  The walk meets one name of
each key, and which one it is depends on the way.  The answer stays where the names of one key have
one short name, as they have in ASCII; but an interface that is named in two spellings, which differ
in the case of a letter outside of ASCII, may be met in the other spelling first.

Main definitions:

* `HintCheck.ClassIndex.Extends` — an index knows all that another one knows;
* `HintCheck.ClassIndex.KnownAbove` — all that stands above a class is known;
* `HintCheck.ClassIndex.NamedAbove` — a name stands in the declaration of a class or of something
  above it;
* `HintCheck.ClassIndex.OneShortName` — names above a class that share a key are all short names of
  an interface, or none is.

Main results:

* `HintCheck.ClassIndex.extends_insert` — a file of new classes extends an index;
* `HintCheck.ClassIndex.Extends.climb_eq` — a walk among known classes stays the same;
* `HintCheck.ClassIndex.oneShortName_of_ascii` — in ASCII a key has one short name;
* `HintCheck.ClassIndex.insert_refines` — **more files only refine answers**, but for an interface
  that is spelled in two ways.
-/

import HintCheck.Proofs.ClassIndex.Ancestors
import HintCheck.Proofs.ClassName

set_option relaxedAutoImplicit false
set_option autoImplicit false

namespace HintCheck

namespace ClassIndex

open Relation

/-! ### Extensions -/

/-- An index knows all that another one knows. -/
def Extends (y x : ClassIndex) : Prop := ∀ key c, x.get? key = some c → y.get? key = some c

theorem insert_ofFiles (fs : List SourceFile) (f : SourceFile) :
    (ofFiles fs).insert f = ofFiles (fs ++ [f]) := by
  rw [ofFiles, ofFiles, List.foldl_append, List.foldl_cons, List.foldl_nil]

/-- A file whose classes are new extends an index. -/
theorem extends_insert {x : ClassIndex} {f : SourceFile}
    (hnew : ∀ c ∈ f.classes, ClassName.key c.fullName ∉ x.keys) : (x.insert f).Extends x := by
  intro key c hc
  have hkey : key ∈ x.keys := get?_isSome_iff.1 (by simp [hc])
  have hnone : (f.classes.map fun c => (f, c)).reverse.find? (hasKey key) = none := by
    rw [List.find?_eq_none]
    intro d hd
    obtain ⟨c, hcf, rfl⟩ := List.mem_map.1 (List.mem_reverse.1 hd)
    simp only [hasKey, beq_iff_eq]
    rintro rfl
    exact hnew c hcf hkey
  rw [insert_eq_foldl, get?_foldl_insertClass, hnone, hc]
  rfl

variable {x y : ClassIndex}

theorem Extends.class? (h : y.Extends x) {name : Text} {c : ClassInfo}
    (hc : x.class? name = some c) : y.class? name = some c := h _ c hc

theorem Extends.stepsTo (h : y.Extends x) {a b : Text} (hs : StepsTo x a b) : StepsTo y a b := by
  obtain ⟨c, hc, hname⟩ := hs
  exact ⟨c, h a c hc, hname⟩

/-! ### Where all is known -/

/-- All that stands above a class is known. -/
def KnownAbove (x : ClassIndex) (key : Text) : Prop :=
  ∀ b, TransGen (StepsTo x) key b → b ∈ x.keys

theorem leavesProject_eq_false_iff {key : Text} {c : ClassInfo} (hc : x.get? key = some c) :
    x.leavesProject (x.ancestors c) = false ↔ KnownAbove x key := by
  simp only [leavesProject, List.any_eq_false, KnownAbove, ← mem_ancestors_iff hc,
    forall_exists_index, and_imp, forall_apply_eq_imp_iff₂, ← get?_isSome_iff, ClassIndex.class?]
  simp [Option.isSome_iff_ne_none]

/-- A walk that meets known classes only is the same walk in an extension. -/
theorem Extends.climb_eq (h : y.Extends x) {seen stack : List Text}
    (hknown : ∀ name ∈ climb x seen stack, (x.class? name).isSome = true) :
    climb y seen stack = climb x seen stack := by
  induction seen, stack using climb.induct x with
  | case1 seen => simp [climb]
  | case2 seen top stack hseen ih =>
      rw [climb_of_seen hseen] at hknown
      rw [climb_of_seen hseen, climb_of_seen hseen, ih hknown]
  | case3 seen top stack hseen info hinfo ih =>
      rw [climb_of_known hseen hinfo] at hknown
      rw [climb_of_known hseen hinfo, climb_of_known hseen (h.class? hinfo),
        ih fun name hname => hknown name (List.mem_cons_of_mem _ hname)]
  | case4 seen top stack hseen hinfo ih =>
      rw [climb_of_unknown hseen hinfo] at hknown
      have htop := hknown top List.mem_cons_self
      rw [hinfo] at htop
      cases htop

section Answers

variable {name : Text} {c : ClassInfo}

theorem Extends.ancestors_eq (h : y.Extends x)
    (hknown : x.leavesProject (x.ancestors c) = false) : y.ancestors c = x.ancestors c := by
  refine h.climb_eq fun n hn => ?_
  have hn := List.any_eq_false.1 hknown n hn
  simpa [Option.isSome_iff_ne_none] using hn

/-- Above a class of which all ancestors are known, an extension knows the same. -/
theorem Extends.any_ancestors_eq (h : y.Extends x)
    (hknown : x.leavesProject (x.ancestors c) = false) (p : Option ClassInfo → Bool) :
    (y.ancestors c).any (fun n => p (y.class? n)) =
      (x.ancestors c).any fun n => p (x.class? n) := by
  rw [h.ancestors_eq hknown]
  refine Bool.eq_iff_iff.2 ?_
  rw [List.any_eq_true, List.any_eq_true]
  refine exists_congr fun n => and_congr_right fun hn => ?_
  have hn : ¬(x.class? n).isNone = true := List.any_eq_false.1 hknown n hn
  obtain ⟨info, hinfo⟩ := Option.ne_none_iff_exists'.1 (by simpa using hn)
  rw [h.class? hinfo, hinfo]

theorem Extends.leavesProject_eq (h : y.Extends x)
    (hknown : x.leavesProject (x.ancestors c) = false) :
    y.leavesProject (y.ancestors c) = false :=
  (h.any_ancestors_eq hknown Option.isNone).trans hknown

/-! ### Answers about methods -/

theorem overrides_eq_yes_iff (hc : x.class? name = some c) (method : Text) :
    x.overrides name method = .yes ↔ c.kind ≠ .trait ∧
      (x.ancestors c).any (fun n => (x.class? n).any (·.declares method)) = true := by
  unfold overrides
  rw [hc]
  dsimp only
  split
  · next hkind => simp [hkind]
  · next hkind =>
    split
    · next hany => simp [hkind, hany]
    · next hany =>
      split <;> simp [hany]

theorem overrides_eq_no_iff (hc : x.class? name = some c) (method : Text) :
    x.overrides name method = .no ↔ c.kind ≠ .trait ∧
      (x.ancestors c).any (fun n => (x.class? n).any (·.declares method)) = false ∧
      x.leavesProject (x.ancestors c) = false := by
  unfold overrides
  rw [hc]
  dsimp only
  split
  · next hkind => simp [hkind]
  · next hkind =>
    split
    · next hany => simp [hany]
    · next hany =>
      split
      · next hleaves => simp [hleaves]
      · next hleaves => simp [hkind, hany, hleaves]

/-- A method that is declared above a class still is when more is known: the class that declares it
is reached still. -/
theorem Extends.overrides_yes (h : y.Extends x) (hc : x.class? name = some c) {method : Text}
    (hyes : x.overrides name method = .yes) : y.overrides name method = .yes := by
  obtain ⟨hkind, hany⟩ := (overrides_eq_yes_iff hc method).1 hyes
  refine (overrides_eq_yes_iff (h.class? hc) method).2 ⟨hkind, ?_⟩
  obtain ⟨n, hn, hdeclares⟩ := List.any_eq_true.1 hany
  obtain ⟨info, hinfo, hdeclares⟩ := (Option.any_eq_true _ _).1 hdeclares
  have hreach : TransGen (StepsTo y) (ClassName.key name) (ClassName.key n) :=
    TransGen.mono (fun _ _ => h.stepsTo) _ _ ((mem_ancestors_iff hc _).1 ⟨n, hn, rfl⟩)
  obtain ⟨n', hn', hkey⟩ := (mem_ancestors_iff (h.class? hc) _).2 hreach
  have hinfo' : y.class? n' = some info := by
    rw [ClassIndex.class?, hkey]
    exact h.class? hinfo
  refine List.any_eq_true.2 ⟨n', hn', ?_⟩
  simpa [hinfo'] using hdeclares

/-- A method that is not declared above a class is not when more is known: nothing more can be
reached. -/
theorem Extends.overrides_no (h : y.Extends x) (hc : x.class? name = some c) {method : Text}
    (hno : x.overrides name method = .no) : y.overrides name method = .no := by
  obtain ⟨hkind, hany, hknown⟩ := (overrides_eq_no_iff hc method).1 hno
  refine (overrides_eq_no_iff (h.class? hc) method).2 ⟨hkind, ?_, h.leavesProject_eq hknown⟩
  rw [h.any_ancestors_eq hknown fun o => o.any (·.declares method), hany]

/-! ### Answers about interfaces -/

/-- A class is below an interface or not under each spelling of its name. -/
theorem implements?_eq_of_key {a b : Text} (h : ClassName.key a = ClassName.key b)
    (interface : Text) : x.implements? a interface = x.implements? b interface := by
  simp only [implements?, ClassIndex.class?, h]

theorem implements?_eq_true_iff (hc : x.class? name = some c) (interface : Text) :
    x.implements? name interface = some true ↔
      (x.ancestors c).any (sameShortName · interface) = true := by
  unfold implements?
  rw [hc]
  dsimp only
  split
  · next hany => simp [hany]
  · next hany =>
    split <;> simp [hany]

theorem implements?_eq_false_iff (hc : x.class? name = some c) (interface : Text) :
    x.implements? name interface = some false ↔
      (x.ancestors c).any (sameShortName · interface) = false ∧
      x.leavesProject (x.ancestors c) = false := by
  unfold implements?
  rw [hc]
  dsimp only
  split
  · next hany => simp [hany]
  · next hany =>
    split
    · next hleaves => simp [hleaves]
    · next hleaves => simp [hany, hleaves]

/-- Where all is known above a class, an extension answers the same about interfaces. -/
theorem Extends.implements?_eq (h : y.Extends x) (hc : x.class? name = some c)
    (hknown : x.leavesProject (x.ancestors c) = false) (interface : Text) :
    y.implements? name interface = x.implements? name interface := by
  have hleaves := h.leavesProject_eq hknown
  unfold implements?
  rw [hc, h.class? hc]
  dsimp only
  rw [hleaves, hknown, h.ancestors_eq hknown]

/-- A name stands in the declaration of a class or of something above it. -/
def NamedAbove (x : ClassIndex) (key name : Text) : Prop :=
  ∃ a c, ReflTransGen (StepsTo x) key a ∧ x.get? a = some c ∧ name ∈ c.above

/-- A name that stands above a class is written in some declaration. -/
theorem NamedAbove.exists_declaration {fs : List SourceFile} {key : Text}
    (h : NamedAbove (ofFiles fs) key name) : ∃ d ∈ declarations fs, name ∈ namesAbove d := by
  obtain ⟨a, info, -, hinfo, hname⟩ := h
  rw [get?_ofFiles] at hinfo
  obtain ⟨d, hd, rfl⟩ := Option.map_eq_some_iff.1 hinfo
  exact ⟨d, (mem_of_declared? hd).1, above_infoOf d ▸ hname⟩

/-- Names above a class that share a key are all short names of an interface, or none is. -/
def OneShortName (x : ClassIndex) (key interface : Text) : Prop :=
  ∀ n n', NamedAbove x key n → NamedAbove x key n' → ClassName.key n = ClassName.key n' →
    sameShortName n interface = sameShortName n' interface

/-- In ASCII a key has one short name. -/
theorem oneShortName_of_ascii {key : Text}
    (h : ∀ n, NamedAbove x key n → ∀ c ∈ n, c.toNat < 128) (interface : Text) :
    OneShortName x key interface := by
  intro n n' hn hn' hkey
  unfold sameShortName Text.sameLetters
  rw [ClassName.lower_lastSegment (h n hn), ClassName.lower_lastSegment (h n' hn'), hkey]

/-- What the walk meets stood on its stack, or it stands in the declaration of something that can be
reached. -/
theorem namedAbove_of_mem_climb {key : Text} {seen stack : List Text}
    (hstack : ∀ n ∈ stack, NamedAbove x key n) {n : Text} (hn : n ∈ climb x seen stack) :
    NamedAbove x key n := by
  induction seen, stack using climb.induct x with
  | case1 seen => simp [climb] at hn
  | case2 seen top stack hseen ih =>
      rw [climb_of_seen hseen] at hn
      exact ih (fun m hm => hstack m (List.mem_cons_of_mem _ hm)) hn
  | case3 seen top stack hseen info hinfo ih =>
      rw [climb_of_known hseen hinfo] at hn
      have htop := hstack top List.mem_cons_self
      rcases List.mem_cons.1 hn with rfl | hn
      · exact htop
      · refine ih (fun m hm => ?_) hn
        rcases List.mem_append.1 hm with hm | hm
        · obtain ⟨a, c, hreach, hc, hmem⟩ := htop
          exact ⟨_, info, hreach.tail ⟨c, hc, top, hmem, rfl⟩, hinfo, List.mem_reverse.1 hm⟩
        · exact hstack m (List.mem_cons_of_mem _ hm)
  | case4 seen top stack hseen hinfo ih =>
      rw [climb_of_unknown hseen hinfo] at hn
      rcases List.mem_cons.1 hn with rfl | hn
      · exact hstack n List.mem_cons_self
      · exact ih (fun m hm => hstack m (List.mem_cons_of_mem _ hm)) hn

theorem namedAbove_of_mem_ancestors {key : Text} (hc : x.get? key = some c) {n : Text}
    (hn : n ∈ x.ancestors c) : NamedAbove x key n :=
  namedAbove_of_mem_climb (fun _ hm => ⟨key, c, .refl, hc, List.mem_reverse.1 hm⟩) hn

/-- The walk meets every key that is named above a class. -/
theorem exists_mem_ancestors_of_namedAbove {key : Text} (hc : x.get? key = some c) {n : Text}
    (hn : NamedAbove x key n) : ∃ n' ∈ x.ancestors c, ClassName.key n' = ClassName.key n := by
  obtain ⟨a, info, hreach, hinfo, hmem⟩ := hn
  exact (mem_ancestors_iff hc _).2 (TransGen.tail' hreach ⟨info, hinfo, n, hmem, rfl⟩)

theorem Extends.namedAbove (h : y.Extends x) {key n : Text} (hn : NamedAbove x key n) :
    NamedAbove y key n := by
  obtain ⟨a, info, hreach, hinfo, hmem⟩ := hn
  exact ⟨a, info, ReflTransGen.mono (fun _ _ => h.stepsTo) _ _ hreach, h a info hinfo, hmem⟩

/-- A class that is below an interface still is when more is known, where the names of one key have
one short name. -/
theorem Extends.implements?_true (h : y.Extends x) (hc : x.class? name = some c) {interface : Text}
    (htrue : x.implements? name interface = some true)
    (hone : OneShortName y (ClassName.key name) interface) :
    y.implements? name interface = some true := by
  obtain ⟨n, hn, hshort⟩ := List.any_eq_true.1 ((implements?_eq_true_iff hc interface).1 htrue)
  have hnamed := h.namedAbove (namedAbove_of_mem_ancestors hc hn)
  obtain ⟨n', hn', hkey⟩ := exists_mem_ancestors_of_namedAbove (h.class? hc) hnamed
  refine (implements?_eq_true_iff (h.class? hc) interface).2 (List.any_eq_true.2 ⟨n', hn', ?_⟩)
  rw [hone n' n (namedAbove_of_mem_ancestors (h.class? hc) hn') hnamed hkey, hshort]

end Answers

/-! ### More files -/

theorem class?_isSome_of_overrides {name method : Text} (h : x.overrides name method ≠ .unknown) :
    ∃ c, x.class? name = some c := by
  cases hc : x.class? name with
  | none => simp [overrides, hc] at h
  | some c => exact ⟨c, rfl⟩

theorem class?_isSome_of_implements? {name interface : Text} {b : Bool}
    (h : x.implements? name interface = some b) : ∃ c, x.class? name = some c := by
  cases hc : x.class? name with
  | none => simp [implements?, hc] at h
  | some c => exact ⟨c, rfl⟩

/-- **More files only refine answers.**  When a file of new classes is added, definite answers about
methods stay, and so do negative answers about interfaces.  A positive answer about an interface
stays where all was known above the class, and where the names of one key have one short name.  In a
project with ASCII names no definite answer changes. -/
theorem insert_refines {x : ClassIndex} {f : SourceFile}
    (hnew : ∀ c ∈ f.classes, ClassName.key c.fullName ∉ x.keys) (name : Text) :
    (∀ method, x.overrides name method ≠ .unknown →
      (x.insert f).overrides name method = x.overrides name method) ∧
    (∀ interface, x.implements? name interface = some false →
      (x.insert f).implements? name interface = some false) ∧
    (∀ interface, x.implements? name interface = some true →
      KnownAbove x (ClassName.key name) ∨
        OneShortName (x.insert f) (ClassName.key name) interface →
      (x.insert f).implements? name interface = some true) ∧
    ((∀ n, NamedAbove (x.insert f) (ClassName.key name) n → ∀ c ∈ n, c.toNat < 128) →
      ∀ interface b, x.implements? name interface = some b →
        (x.insert f).implements? name interface = some b) := by
  have hext := extends_insert hnew
  have hfalse : ∀ interface, x.implements? name interface = some false →
      (x.insert f).implements? name interface = some false := by
    intro interface h
    obtain ⟨c, hc⟩ := class?_isSome_of_implements? h
    rw [hext.implements?_eq hc ((implements?_eq_false_iff hc interface).1 h).2, h]
  refine ⟨?_, hfalse, ?_, ?_⟩
  · intro method h
    obtain ⟨c, hc⟩ := class?_isSome_of_overrides h
    cases hanswer : x.overrides name method with
    | yes => exact hext.overrides_yes hc hanswer
    | no => exact hext.overrides_no hc hanswer
    | unknown => exact absurd hanswer h
  · rintro interface h (hknown | hone)
    · obtain ⟨c, hc⟩ := class?_isSome_of_implements? h
      rw [hext.implements?_eq hc ((leavesProject_eq_false_iff hc).2 hknown), h]
    · obtain ⟨c, hc⟩ := class?_isSome_of_implements? h
      exact hext.implements?_true hc h hone
  · intro hascii interface b h
    cases b with
    | false => exact hfalse interface h
    | true =>
        obtain ⟨c, hc⟩ := class?_isSome_of_implements? h
        exact hext.implements?_true hc h (oneShortName_of_ascii hascii interface)

/-- A class without members. -/
def bareClass (name : Text) (kind : ClassKind) (parent : Option Text) (interfaces : List Text) :
    ClassDecl :=
  { line := 1, kind, name, fullName := name, scope := none, doc := none, parent, interfaces
    methods := [], properties := [], constants := [] }

/-- A file with classes only. -/
def classFile (classes : List ClassDecl) : SourceFile :=
  { path := "f.php".toList, source := [], scope := none, imports := [], functions := [], classes
    failures := [], suppressions := .none }

/-- A file that declares the class `A`, and all that stands above it. -/
def knownFile : SourceFile :=
  classFile
    [bareClass "A".toList .ordinary (some "B".toList) ["Countable".toList],
      bareClass "B".toList .ordinary none [], bareClass "Countable".toList .interface none []]

/-- Where only that file is known. -/
def knownClass : ClassIndex := .ofFiles [knownFile]

/-- A file that declares a class below `A`. -/
def childFile : SourceFile := classFile [bareClass "C".toList .ordinary (some "A".toList) []]

/-- What is known of `A` stays known when a class below it is added: that it overrides no method,
that it is no iterator, that it is countable, since all that stands above it is known, and that it
is below `B`, since all names are in ASCII. -/
theorem insert_refines_of_known_parent :
    (∀ c ∈ childFile.classes, ClassName.key c.fullName ∉ knownClass.keys) ∧
    (knownClass.insert childFile).overrides "A".toList "run".toList = .no ∧
    (knownClass.insert childFile).implements? "A".toList "Iterator".toList = some false ∧
    (knownClass.insert childFile).implements? "A".toList "Countable".toList = some true ∧
    (knownClass.insert childFile).implements? "A".toList "B".toList = some true := by
  have hnew : ∀ c ∈ childFile.classes, ClassName.key c.fullName ∉ knownClass.keys := by
    decide +kernel
  obtain ⟨c, hclass, hkind, habove⟩ : ∃ c, knownClass.class? "A".toList = some c ∧
      c.kind = .ordinary ∧ knownClass.ancestors c = ["Countable".toList, "B".toList] :=
    ⟨_, rfl, rfl, climb_of_climbWithin? (n := 2) (by decide +kernel)⟩
  have hno : knownClass.overrides "A".toList "run".toList = .no := by
    rw [overrides_eq_no_iff hclass, habove, hkind]
    decide +kernel
  have hfalse : knownClass.implements? "A".toList "Iterator".toList = some false := by
    rw [implements?_eq_false_iff hclass, habove]
    decide +kernel
  have htrue : knownClass.implements? "A".toList "Countable".toList = some true := by
    rw [implements?_eq_true_iff hclass, habove]
    decide +kernel
  have hbelow : knownClass.implements? "A".toList "B".toList = some true := by
    rw [implements?_eq_true_iff hclass, habove]
    decide +kernel
  have hwritten : ((declarations ([knownFile] ++ [childFile])).all fun d =>
      (namesAbove d).all fun n => n.all fun c => c.toNat < 128) = true := by decide +kernel
  simp only [List.all_eq_true, decide_eq_true_eq] at hwritten
  have hascii : ∀ n, NamedAbove (knownClass.insert childFile) (ClassName.key "A".toList) n →
      ∀ c ∈ n, c.toNat < 128 := by
    intro n hn
    rw [knownClass, insert_ofFiles] at hn
    obtain ⟨d, hd, hname⟩ := hn.exists_declaration
    exact hwritten d hd n hname
  have hknown : KnownAbove knownClass (ClassName.key "A".toList) := by
    obtain ⟨c, hc⟩ := class?_isSome_of_implements? htrue
    exact (leavesProject_eq_false_iff hc).1 ((implements?_eq_false_iff hc _).1 hfalse).2
  obtain ⟨hmethods, hnegative, hpositive, hdefinite⟩ := insert_refines hnew "A".toList
  exact ⟨hnew, (hmethods _ (by rw [hno]; decide)).trans hno, hnegative _ hfalse,
    hpositive _ htrue (Or.inl hknown), hdefinite hascii _ _ hbelow⟩

/-- The class `Élan` is extended, and the interface `Source` is declared in another file. -/
def accentedClass : ClassIndex :=
  .ofFiles [classFile
    [bareClass "Liste".toList .ordinary (some "Élan".toList) ["Source".toList]]]

/-- A file that declares `Source`, above the same class in another spelling. -/
def accentedFile : SourceFile :=
  classFile [bareClass "Source".toList .interface none ["élan".toList]]

/-- A class is known to be below the class that it extends by name.  When the interface above it
becomes known, the walk meets the other spelling of that name first, and passes over its own. -/
theorem not_refines_of_accented_name :
    (∀ c ∈ accentedFile.classes, ClassName.key c.fullName ∉ accentedClass.keys) ∧
    accentedClass.implements? "Liste".toList "Élan".toList = some true ∧
    (accentedClass.insert accentedFile).implements? "Liste".toList "Élan".toList = none := by
  refine ⟨by decide +kernel, ?_, ?_⟩
  · obtain ⟨c, hclass, habove⟩ : ∃ c, accentedClass.class? "Liste".toList = some c ∧
        accentedClass.ancestors c = ["Source".toList, "Élan".toList] :=
      ⟨_, rfl, climb_of_climbWithin? (n := 2) (by decide +kernel)⟩
    rw [implements?_eq_true_iff hclass, habove]
    decide +kernel
  · obtain ⟨c, hclass, habove⟩ : ∃ c,
        (accentedClass.insert accentedFile).class? "Liste".toList = some c ∧
        (accentedClass.insert accentedFile).ancestors c = ["Source".toList, "élan".toList] :=
      ⟨_, rfl, climb_of_climbWithin? (n := 3) (by decide +kernel)⟩
    simp only [implements?, hclass, habove]
    decide +kernel

end ClassIndex

end HintCheck
