/-
**The interfaces above a class.**

Whether a class is below an interface is asked of the names that the walk above the class meets, by
their last segments.  The walk meets each key under one of its names only, and which one it is
depends on the way.  In a hierarchy with ASCII names this makes no difference: the last segment of a
name is that of its key, up to the case of letters, so that the answer depends on what can be
reached and on nothing else.

Main definitions:

* `HintCheck.ClassIndex.AsciiHierarchy` — the names above all classes are in ASCII;
* `HintCheck.ClassIndex.NamedLikeAbove` — some key above a class has the short name of an interface.

Main results:

* `HintCheck.ClassIndex.sameShortName_key` — an ASCII name has the short name of its key;
* `HintCheck.ClassIndex.namedLikeAbove_iff` — the walk meets an interface by its short name exactly
  when it can be reached;
* `HintCheck.ClassIndex.implements?_iff_above` — **the three answers about interfaces, by
  reachability**.
-/

import HintCheck.Proofs.ClassIndex.Growth

set_option relaxedAutoImplicit false
set_option autoImplicit false

namespace HintCheck

namespace ClassIndex

open Relation

/-! ### Short names -/

/-- An ASCII name has the short name of its key. -/
theorem sameShortName_key {name : Text} (h : ∀ c ∈ name, c.toNat < 128) (interface : Text) :
    sameShortName (ClassName.key name) interface = sameShortName name interface := by
  have hlower : Text.lower (ClassName.lastSegment (ClassName.key name)) =
      Text.lower (ClassName.lastSegment name) := by
    rw [← ClassName.lower_lastSegment h, Text.lower_lower]
  rw [sameShortName, sameShortName, Text.sameLetters, Text.sameLetters, hlower]

/-! ### The hierarchy of files -/

/-- The full names that stand above the classes of files are written in ASCII. -/
def AsciiHierarchy (fs : List SourceFile) : Prop :=
  ∀ key d, declared? fs key = some d → ∀ name ∈ namesAbove d, ∀ c ∈ name, c.toNat < 128

/-- Some key above a key has the short name of an interface, declared or not. -/
def NamedLikeAbove (fs : List SourceFile) (key interface : Text) : Prop :=
  ∃ b, Above fs key b ∧ sameShortName b interface = true

/-- A name belongs to a declared class. -/
def IsDeclared (fs : List SourceFile) (name : Text) : Prop :=
  ∃ d, declared? fs (ClassName.key name) = some d

variable {fs : List SourceFile}

/-- It is enough that every declaration names ASCII names, those included that gave way. -/
theorem asciiHierarchy_of_declarations
    (h : ∀ d ∈ declarations fs, ∀ name ∈ namesAbove d, ∀ c ∈ name, c.toNat < 128) :
    AsciiHierarchy fs :=
  fun _ d hd => h d (mem_of_declared? hd).1

/-- What the walk above a class meets is written in ASCII. -/
theorem AsciiHierarchy.of_mem_ancestors (hascii : AsciiHierarchy fs) {key : Text}
    {d : SourceFile × ClassDecl} (hd : declared? fs key = some d) {name : Text}
    (hname : name ∈ (ofFiles fs).ancestors (infoOf d)) : ∀ c ∈ name, c.toNat < 128 := by
  have hc : (ofFiles fs).get? key = some (infoOf d) := by rw [get?_ofFiles, hd]; rfl
  obtain ⟨a, info, -, hinfo, habove⟩ := namedAbove_of_mem_ancestors hc hname
  rw [get?_ofFiles] at hinfo
  obtain ⟨e, he, rfl⟩ := Option.map_eq_some_iff.1 hinfo
  exact hascii a e he name (above_infoOf e ▸ habove)

/-- **The walk meets an interface by its short name exactly when it can be reached.** -/
theorem namedLikeAbove_iff (hascii : AsciiHierarchy fs) {key : Text} {d : SourceFile × ClassDecl}
    (hd : declared? fs key = some d) (interface : Text) :
    ((ofFiles fs).ancestors (infoOf d)).any (sameShortName · interface) = true ↔
      NamedLikeAbove fs key interface := by
  have hc : (ofFiles fs).get? key = some (infoOf d) := by rw [get?_ofFiles, hd]; rfl
  have hwalk := mem_ancestors_iff hc
  rw [stepsTo_ofFiles] at hwalk
  rw [List.any_eq_true]
  constructor
  · rintro ⟨name, hname, hshort⟩
    have hkey := sameShortName_key (hascii.of_mem_ancestors hd hname) interface
    exact ⟨_, (hwalk _).1 ⟨name, hname, rfl⟩, hkey.trans hshort⟩
  · rintro ⟨b, hb, hshort⟩
    obtain ⟨name, hname, rfl⟩ := (hwalk b).2 hb
    have hkey := sameShortName_key (hascii.of_mem_ancestors hd hname) interface
    exact ⟨name, hname, hkey.symm.trans hshort⟩

theorem implements?_of_not_isDeclared {name : Text} (h : ¬IsDeclared fs name) (interface : Text) :
    (ofFiles fs).implements? name interface = none := by
  have hclass : (ofFiles fs).class? name = none := by
    rw [class?, get?_ofFiles, Option.map_eq_none_iff]
    exact Option.eq_none_iff_forall_ne_some.2 fun d hd => h ⟨d, hd⟩
  rw [implements?, hclass]

open Classical in
/-- Of a declared class the answer depends on what stands above it. -/
theorem implements?_of_isDeclared (hascii : AsciiHierarchy fs) {name : Text}
    (h : IsDeclared fs name) (interface : Text) :
    (ofFiles fs).implements? name interface =
      if NamedLikeAbove fs (ClassName.key name) interface then some true
      else if LeavesAbove fs (ClassName.key name) then none
      else some false := by
  obtain ⟨d, hd⟩ := h
  have hclass : (ofFiles fs).class? name = some (infoOf d) := by
    rw [class?, get?_ofFiles, hd]
    rfl
  unfold implements?
  rw [hclass]
  simp only [namedLikeAbove_iff hascii hd, leavesAbove_iff hd]

/-- A class that is not above itself does not lend its own name to what is above it. -/
theorem NamedLikeAbove.exists_ne {key interface : Text} (h : NamedLikeAbove fs key interface)
    (hself : ¬Above fs key key) :
    ∃ b, b ≠ key ∧ Above fs key b ∧ sameShortName b interface = true := by
  obtain ⟨b, hb, hshort⟩ := h
  exact ⟨b, fun heq => hself (heq ▸ hb), hb, hshort⟩

/-- **The three answers about interfaces, by reachability.**  In a hierarchy with ASCII names, a
declared class is below an interface for certain when something above it has the short name of the
interface, declared or not, and for certain it is not when nothing has and all that can be reached
is declared.  The class itself counts only where it is above itself: otherwise it is another one
that has the name. -/
theorem implements?_iff_above {fs : List SourceFile} (hascii : AsciiHierarchy fs)
    (name interface : Text) :
    ((ofFiles fs).implements? name interface = some true ↔
      IsDeclared fs name ∧ NamedLikeAbove fs (ClassName.key name) interface) ∧
    ((ofFiles fs).implements? name interface = some false ↔
      IsDeclared fs name ∧ ¬NamedLikeAbove fs (ClassName.key name) interface ∧
        ¬LeavesAbove fs (ClassName.key name)) ∧
    ((ofFiles fs).implements? name interface = none ↔
      ¬IsDeclared fs name ∨
        (¬NamedLikeAbove fs (ClassName.key name) interface ∧
          LeavesAbove fs (ClassName.key name))) ∧
    ((ofFiles fs).implements? name interface = some true →
      ¬Above fs (ClassName.key name) (ClassName.key name) →
      ∃ b, b ≠ ClassName.key name ∧ Above fs (ClassName.key name) b ∧
        sameShortName b interface = true) := by
  by_cases hdeclared : IsDeclared fs name
  · rw [implements?_of_isDeclared hascii hdeclared]
    by_cases hnamed : NamedLikeAbove fs (ClassName.key name) interface
    · refine ⟨?_, ?_, ?_, fun _ => hnamed.exists_ne⟩
      all_goals simp [hdeclared, hnamed]
    · by_cases hleaves : LeavesAbove fs (ClassName.key name)
      · simp [hdeclared, hnamed, hleaves]
      · simp [hdeclared, hnamed, hleaves]
  · rw [implements?_of_not_isDeclared hdeclared]
    simp [hdeclared]

/-- A file with two classes that extend each other; one of them names an interface of a library. -/
def loopFile : SourceFile :=
  classFile
    [bareClass "A".toList .ordinary (some "B".toList) [],
      bareClass "B".toList .ordinary (some "A".toList) ["Lib\\Iterator".toList]]

/-- In the cycle `A` is above itself, so that its own short name counts.  The interface of the
library is found although it is declared nowhere, and any other interface stays unknown. -/
theorem implements?_iff_above_of_loop :
    AsciiHierarchy [loopFile] ∧ NamedLikeAbove [loopFile] "a".toList "Other\\A".toList ∧
      NamedLikeAbove [loopFile] "a".toList "iterator".toList ∧
      ¬NamedLikeAbove [loopFile] "a".toList "Countable".toList ∧
      LeavesAbove [loopFile] "a".toList := by
  have hwritten : ((declarations [loopFile]).all fun d =>
      (namesAbove d).all fun n => n.all fun c => c.toNat < 128) = true := by decide +kernel
  simp only [List.all_eq_true, decide_eq_true_eq] at hwritten
  have hascii := asciiHierarchy_of_declarations hwritten
  have hkey : ClassName.key "A".toList = "a".toList := by decide +kernel
  obtain ⟨c, hclass, habove⟩ : ∃ c, (ofFiles [loopFile]).class? "A".toList = some c ∧
      (ofFiles [loopFile]).ancestors c = ["B".toList, "Lib\\Iterator".toList, "A".toList] :=
    ⟨_, rfl, climb_of_climbWithin? (n := 4) (by decide +kernel)⟩
  have hself : (ofFiles [loopFile]).implements? "A".toList "Other\\A".toList = some true := by
    rw [implements?_eq_true_iff hclass, habove]
    decide +kernel
  have hlib : (ofFiles [loopFile]).implements? "A".toList "iterator".toList = some true := by
    rw [implements?_eq_true_iff hclass, habove]
    decide +kernel
  have hnone : (ofFiles [loopFile]).implements? "A".toList "Countable".toList = none := by
    simp only [implements?, hclass, habove]
    decide +kernel
  have hnamed := fun interface => (implements?_iff_above hascii "A".toList interface).1
  have hunknown := (implements?_iff_above hascii "A".toList "Countable".toList).2.2.1
  rw [hkey] at hunknown
  simp only [hkey] at hnamed
  have hdeclared := ((hnamed _).1 hself).1
  obtain ⟨hno, hleaves⟩ := (hunknown.1 hnone).resolve_left fun h => h hdeclared
  exact ⟨hascii, ((hnamed _).1 hself).2, ((hnamed _).1 hlib).2, hno, hleaves⟩

end ClassIndex

end HintCheck
