/-
**The classes above a class.**

The walk over the classes above a class keeps a stack of names and the keys that it has seen.  This
module shows that it finds exactly what can be reached: the keys that lie one or more steps above,
where a step goes from a declared class to its parent or to one of its interfaces.  Inheritance may
be cyclic, and the same class may be reached in several ways.

The index itself is described by the files that were added to it: of the declarations that share a
key, the last one holds.

Main definitions:

* `HintCheck.ClassIndex.declared?` — the declaration that holds for a key;
* `HintCheck.ClassIndex.StepsUp`, `HintCheck.ClassIndex.Above` — one step up, and several;
* `HintCheck.ClassIndex.climbWithin?` — the walk in a number of steps at most;
* `HintCheck.ClassIndex.DeclaredAbove`, `HintCheck.ClassIndex.LeavesAbove` — a method is declared
  above a class; some class above it is declared nowhere.

Main results:

* `HintCheck.ClassIndex.get?_ofFiles` — the index answers with the declaration that holds;
* `HintCheck.ClassIndex.exists_reaches_of_mem_climb`, `HintCheck.ClassIndex.climb_closed` — what
  the walk meets can be reached, and nothing that can be reached is left out;
* `HintCheck.ClassIndex.mem_ancestors_iff` — **the walk is reachability**;
* `HintCheck.ClassIndex.overrides_iff_above` — **the three answers about overriding, by
  reachability**.
-/

import Mathlib.Logic.Relation
import HintCheck.ClassIndex

set_option relaxedAutoImplicit false
set_option autoImplicit false

namespace HintCheck

namespace ClassIndex

open Relation

/-! ### The declarations of files -/

/-- The class declarations of files, each with its file, in the order in which they are added. -/
def declarations (fs : List SourceFile) : List (SourceFile × ClassDecl) :=
  fs.flatMap fun f => f.classes.map fun c => (f, c)

/-- What is known of a class from its declaration. -/
def infoOf (d : SourceFile × ClassDecl) : ClassInfo := .ofDecl d.1.imports d.2

/-- Whether a declaration belongs to a key. -/
def hasKey (key : Text) (d : SourceFile × ClassDecl) : Bool := ClassName.key d.2.fullName == key

/-- The declaration that holds for a key: the last one of those that have it. -/
def declared? (fs : List SourceFile) (key : Text) : Option (SourceFile × ClassDecl) :=
  (declarations fs).reverse.find? (hasKey key)

theorem mem_of_declared? {fs : List SourceFile} {key : Text} {d : SourceFile × ClassDecl}
    (h : declared? fs key = some d) : d ∈ declarations fs ∧ ClassName.key d.2.fullName = key := by
  refine ⟨List.mem_reverse.1 (List.mem_of_find?_eq_some h), ?_⟩
  simpa [hasKey] using List.find?_some h

theorem lookup_filter_of_ne {α : Type} {key other : Text} (hne : key ≠ other)
    (es : List (Text × α)) : (es.filter (·.1 != other)).lookup key = es.lookup key := by
  induction es with
  | nil => rfl
  | cons e es ih =>
      obtain ⟨k, _⟩ := e
      by_cases hk : k = other
      · have hkey : (key == k) = false := by simpa [hk] using hne
        rw [List.filter_cons_of_neg (by simp [hk]), ih, List.lookup_cons, hkey]
      · rw [List.filter_cons_of_pos (by simpa using hk), List.lookup_cons, List.lookup_cons, ih]

/-- A class that is added answers for its key, and changes no other answer. -/
theorem get?_insertClass (x : ClassIndex) (c : ClassInfo) (key : Text) :
    (x.insertClass c).get? key = if ClassName.key c.fullName = key then some c else x.get? key := by
  unfold insertClass get?
  split
  · next h => simp [h]
  · next h =>
    have hkey : (key == ClassName.key c.fullName) = false := by simpa using Ne.symm h
    rw [List.lookup_cons, hkey]
    exact lookup_filter_of_ne (Ne.symm h) x.entries

theorem insert_eq_foldl (x : ClassIndex) (f : SourceFile) :
    x.insert f = (f.classes.map fun c => (f, c)).foldl (fun x d => x.insertClass (infoOf d)) x := by
  rw [List.foldl_map]
  rfl

theorem ofFiles_eq_foldl (fs : List SourceFile) :
    ofFiles fs = (declarations fs).foldl (fun x d => x.insertClass (infoOf d)) empty := by
  rw [declarations, List.foldl_flatMap, ofFiles]
  congr 1
  funext x f
  exact insert_eq_foldl x f

theorem get?_foldl_insertClass (ds : List (SourceFile × ClassDecl)) (x : ClassIndex) (key : Text) :
    (ds.foldl (fun x d => x.insertClass (infoOf d)) x).get? key =
      ((ds.reverse.find? (hasKey key)).map infoOf).or (x.get? key) := by
  induction ds generalizing x with
  | nil => simp
  | cons d ds ih =>
      rw [List.foldl_cons, ih, get?_insertClass, List.reverse_cons, List.find?_append]
      cases ds.reverse.find? (hasKey key) with
      | some d' => simp
      | none =>
          by_cases hd : ClassName.key d.2.fullName = key
          · simp [hasKey, infoOf, ClassInfo.ofDecl, hd]
          · simp [hasKey, infoOf, ClassInfo.ofDecl, hd]

/-- **The index answers with the last declaration of a key.** -/
theorem get?_ofFiles (fs : List SourceFile) (key : Text) :
    (ofFiles fs).get? key = (declared? fs key).map infoOf := by
  rw [ofFiles_eq_foldl, get?_foldl_insertClass]
  simp [declared?, get?, empty]

/-! ### Steps -/

/-- One step up: from a class of the index to a key that stands right above it. -/
def StepsTo (x : ClassIndex) (a b : Text) : Prop :=
  ∃ c, x.get? a = some c ∧ ∃ name ∈ c.above, ClassName.key name = b

section Walk

variable {x : ClassIndex} {seen : List Text} {top : Text}

/-- The walk passes over a name whose key was seen. -/
theorem climb_of_seen (hseen : seen.contains (ClassName.key top) = true) (stack : List Text) :
    climb x seen (top :: stack) = climb x seen stack := by
  rw [climb, if_pos hseen]

/-- From a class of the index the walk goes on to what stands above it. -/
theorem climb_of_known (hseen : ¬seen.contains (ClassName.key top) = true) {info : ClassInfo}
    (hinfo : x.class? top = some info) (stack : List Text) :
    climb x seen (top :: stack) =
      top :: climb x (ClassName.key top :: seen) (info.above.reverse ++ stack) := by
  rw [climb, if_neg hseen]
  split <;> simp_all

/-- Above a class that is not in the index there is nothing to be seen. -/
theorem climb_of_unknown (hseen : ¬seen.contains (ClassName.key top) = true)
    (hinfo : x.class? top = none) (stack : List Text) :
    climb x seen (top :: stack) = top :: climb x (ClassName.key top :: seen) stack := by
  rw [climb, if_neg hseen]
  split <;> simp_all

end Walk

/-- The walk in a number of steps at most; nothing when these do not suffice. -/
def climbWithin? (x : ClassIndex) : Nat → List Text → List Text → Option (List Text)
  | _, _, [] => some []
  | 0, _, _ :: _ => none
  | n + 1, seen, top :: stack =>
    if seen.contains (ClassName.key top) then climbWithin? x n seen stack
    else
      (climbWithin? x n (ClassName.key top :: seen)
        ((x.class? top).elim [] (·.above.reverse) ++ stack)).map (top :: ·)

/-- A walk whose steps suffice is the whole walk. -/
theorem climb_of_climbWithin? {x : ClassIndex} {n : Nat} {seen stack names : List Text}
    (h : climbWithin? x n seen stack = some names) : climb x seen stack = names := by
  fun_induction climbWithin? x n seen stack generalizing names with
  | case1 => simpa [climb] using h
  | case2 => cases h
  | case3 n seen top stack hseen ih => rw [climb_of_seen hseen, ih h]
  | case4 n seen top stack hseen ih =>
      obtain ⟨rest, hrest, rfl⟩ := Option.map_eq_some_iff.1 h
      rw [← ih hrest]
      cases hinfo : x.class? top with
      | none => exact climb_of_unknown hseen hinfo stack
      | some info => exact climb_of_known hseen hinfo stack

/-- What the walk meets is reached from a name on its stack. -/
theorem exists_reaches_of_mem_climb {x : ClassIndex} {seen stack : List Text} {name : Text}
    (h : name ∈ climb x seen stack) :
    ∃ start ∈ stack, ReflTransGen (StepsTo x) (ClassName.key start) (ClassName.key name) := by
  fun_induction climb x seen stack with
  | case1 => simp at h
  | case2 seen top stack _ ih =>
      obtain ⟨start, hstart, hreach⟩ := ih h
      exact ⟨start, List.mem_cons_of_mem _ hstart, hreach⟩
  | case3 seen top stack _ info hinfo ih =>
      rcases List.mem_cons.1 h with rfl | h
      · exact ⟨name, List.mem_cons_self, .refl⟩
      · obtain ⟨start, hstart, hreach⟩ := ih h
        rcases List.mem_append.1 hstart with habove | hstart
        · -- the name that was put on the stack is a step above the one that was taken off
          have hstep : StepsTo x (ClassName.key top) (ClassName.key start) :=
            ⟨info, hinfo, start, List.mem_reverse.1 habove, rfl⟩
          exact ⟨top, List.mem_cons_self, hreach.head hstep⟩
        · exact ⟨start, List.mem_cons_of_mem _ hstart, hreach⟩
  | case4 seen top stack _ _ ih =>
      rcases List.mem_cons.1 h with rfl | h
      · exact ⟨name, List.mem_cons_self, .refl⟩
      · obtain ⟨start, hstart, hreach⟩ := ih h
        exact ⟨start, List.mem_cons_of_mem _ hstart, hreach⟩

/-- The keys that a walk has dealt with: those seen before it, and those that it meets. -/
def Visited (x : ClassIndex) (seen stack : List Text) (key : Text) : Prop :=
  key ∈ seen ∨ ∃ name ∈ climb x seen stack, ClassName.key name = key

/-- A walk deals with its whole stack, and with every step up from what it meets. -/
structure Closed (x : ClassIndex) (seen stack : List Text) : Prop where
  waiting : ∀ name ∈ stack, Visited x seen stack (ClassName.key name)
  step : ∀ name ∈ climb x seen stack, ∀ b, StepsTo x (ClassName.key name) b →
    Visited x seen stack b

/-- A name that was not seen is met, and the walk goes on with a stack that holds what was there
and what stands above the name. -/
theorem Closed.of_fresh {x : ClassIndex} {seen stack next : List Text} {top : Text}
    (hclimb : climb x seen (top :: stack) = top :: climb x (ClassName.key top :: seen) next)
    (hkept : ∀ name ∈ stack, name ∈ next)
    (habove : ∀ b, StepsTo x (ClassName.key top) b → ∃ name ∈ next, ClassName.key name = b)
    (h : Closed x (ClassName.key top :: seen) next) : Closed x seen (top :: stack) := by
  have htop : Visited x seen (top :: stack) (ClassName.key top) :=
    Or.inr ⟨top, by simp [hclimb], rfl⟩
  have hlift : ∀ key, Visited x (ClassName.key top :: seen) next key →
      Visited x seen (top :: stack) key := by
    rintro key (hseen | ⟨name, hname, rfl⟩)
    · rcases List.mem_cons.1 hseen with rfl | hseen
      · exact htop
      · exact Or.inl hseen
    · exact Or.inr ⟨name, by simp [hclimb, hname], rfl⟩
  constructor
  · intro name hname
    rcases List.mem_cons.1 hname with rfl | hname
    · exact htop
    · exact hlift _ (h.waiting name (hkept name hname))
  · intro name hname b hb
    rw [hclimb] at hname
    rcases List.mem_cons.1 hname with rfl | hname
    · obtain ⟨above, hmem, rfl⟩ := habove b hb
      exact hlift _ (h.waiting above hmem)
    · exact hlift b (h.step name hname b hb)

/-- Nothing that can be reached is left out of a walk. -/
theorem climb_closed (x : ClassIndex) (seen stack : List Text) : Closed x seen stack := by
  induction seen, stack using climb.induct x with
  | case1 seen => exact ⟨by simp, by simp [climb]⟩
  | case2 seen top stack hseen ih =>
      have hclimb := climb_of_seen (x := x) hseen stack
      constructor
      · intro name hname
        rcases List.mem_cons.1 hname with rfl | hname
        · exact Or.inl (by simpa using hseen)
        · simpa only [Visited, hclimb] using ih.waiting name hname
      · simpa only [Visited, hclimb] using ih.step
  | case3 seen top stack hseen info hinfo ih =>
      refine ih.of_fresh (climb_of_known hseen hinfo stack) ?_ ?_
      · intro name hname
        exact List.mem_append_right _ hname
      · rintro b ⟨c, hc, name, hname, rfl⟩
        obtain rfl : info = c := Option.some_inj.1 (hinfo.symm.trans hc)
        exact ⟨name, List.mem_append_left _ (List.mem_reverse.2 hname), rfl⟩
  | case4 seen top stack hseen hinfo ih =>
      refine ih.of_fresh (climb_of_unknown hseen hinfo stack) (fun name hname => hname) ?_
      rintro b ⟨c, hc, _⟩
      have hnone : x.get? (ClassName.key top) = none := hinfo
      rw [hnone] at hc
      cases hc

/-- A walk that has seen nothing before contains what can be reached from its stack. -/
theorem exists_mem_climb_of_reaches {x : ClassIndex} {stack : List Text} {start key : Text}
    (hstart : start ∈ stack) (h : ReflTransGen (StepsTo x) (ClassName.key start) key) :
    ∃ name ∈ climb x [] stack, ClassName.key name = key := by
  have hclosed := climb_closed x [] stack
  have hmet : ∀ {k}, Visited x [] stack k → ∃ name ∈ climb x [] stack, ClassName.key name = k := by
    rintro k (hseen | hmet)
    · simp at hseen
    · exact hmet
  induction h with
  | refl => exact hmet (hclosed.waiting start hstart)
  | tail _ hstep ih =>
      obtain ⟨name, hname, rfl⟩ := ih
      exact hmet (hclosed.step name hname _ hstep)

/-- **The walk is reachability**: it meets the keys that lie one or more steps above a class. -/
theorem mem_ancestors_iff {x : ClassIndex} {key : Text} {c : ClassInfo} (hc : x.get? key = some c)
    (b : Text) :
    (∃ name ∈ x.ancestors c, ClassName.key name = b) ↔ TransGen (StepsTo x) key b := by
  rw [ancestors, TransGen.head'_iff]
  constructor
  · rintro ⟨name, hname, rfl⟩
    obtain ⟨start, hstart, hreach⟩ := exists_reaches_of_mem_climb hname
    exact ⟨_, ⟨c, hc, start, List.mem_reverse.1 hstart, rfl⟩, hreach⟩
  · rintro ⟨_, ⟨c', hc', start, hstart, rfl⟩, hreach⟩
    obtain rfl : c = c' := Option.some_inj.1 (hc.symm.trans hc')
    exact exists_mem_climb_of_reaches (List.mem_reverse.2 hstart) hreach

/-! ### The hierarchy of files -/

variable (fs : List SourceFile)

/-- The full names that a declaration names as its parent and its interfaces. -/
def namesAbove (d : SourceFile × ClassDecl) : List Text :=
  (d.2.parent.toList ++ d.2.interfaces).map (ClassName.resolve d.2.scope d.1.imports)

/-- One step up: from the key of a declared class to the key of its parent, or of one of its
interfaces. -/
def StepsUp (a b : Text) : Prop :=
  ∃ d, declared? fs a = some d ∧ ∃ name ∈ namesAbove d, ClassName.key name = b

/-- One or more steps up. -/
def Above : Text → Text → Prop := TransGen (StepsUp fs)

/-- Whether a declaration has a method, in any case of the letters of its name. -/
def HasMethod (d : SourceFile × ClassDecl) (method : Text) : Prop :=
  ∃ m ∈ d.2.methods, Text.lowercase m.signature.name = Text.lowercase method

/-- Some declared class above a key has a method. -/
def DeclaredAbove (key method : Text) : Prop :=
  ∃ b d, Above fs key b ∧ declared? fs b = some d ∧ HasMethod d method

/-- Some key above a key is declared nowhere. -/
def LeavesAbove (key : Text) : Prop := ∃ b, Above fs key b ∧ declared? fs b = none

variable {fs}

theorem above_infoOf (d : SourceFile × ClassDecl) : (infoOf d).above = namesAbove d := by
  simp [infoOf, ClassInfo.ofDecl, ClassInfo.above, namesAbove, Option.toList_map]

theorem declares_infoOf (d : SourceFile × ClassDecl) (method : Text) :
    (infoOf d).declares method = true ↔ HasMethod d method := by
  simp [infoOf, ClassInfo.ofDecl, ClassInfo.declares, HasMethod]

theorem stepsTo_ofFiles : StepsTo (ofFiles fs) = StepsUp fs := by
  funext a b
  refine propext ⟨?_, ?_⟩
  · rintro ⟨c, hc, hname⟩
    rw [get?_ofFiles] at hc
    obtain ⟨d, hd, rfl⟩ := Option.map_eq_some_iff.1 hc
    rw [above_infoOf] at hname
    exact ⟨d, hd, hname⟩
  · rintro ⟨d, hd, hname⟩
    refine ⟨infoOf d, by rw [get?_ofFiles, hd]; rfl, ?_⟩
    rwa [above_infoOf]

/-- What holds of some class above a class, by the walk and by reachability. -/
theorem any_ancestors_iff {key : Text} {d : SourceFile × ClassDecl}
    (hd : declared? fs key = some d) (p : Option ClassInfo → Bool) :
    ((ofFiles fs).ancestors (infoOf d)).any (fun n => p ((ofFiles fs).class? n)) = true ↔
      ∃ b, Above fs key b ∧ p ((declared? fs b).map infoOf) = true := by
  have hc : (ofFiles fs).get? key = some (infoOf d) := by rw [get?_ofFiles, hd]; rfl
  have hwalk := mem_ancestors_iff hc
  rw [stepsTo_ofFiles] at hwalk
  simp only [List.any_eq_true, class?, get?_ofFiles]
  constructor
  · rintro ⟨name, hname, hp⟩
    exact ⟨_, (hwalk _).1 ⟨name, hname, rfl⟩, hp⟩
  · rintro ⟨b, hb, hp⟩
    obtain ⟨name, hname, rfl⟩ := (hwalk b).2 hb
    exact ⟨name, hname, hp⟩

theorem declaredAbove_iff {key : Text} {d : SourceFile × ClassDecl}
    (hd : declared? fs key = some d) (method : Text) :
    ((ofFiles fs).ancestors (infoOf d)).any
        (fun n => ((ofFiles fs).class? n).any (·.declares method)) = true ↔
      DeclaredAbove fs key method := by
  rw [any_ancestors_iff hd fun o => o.any (·.declares method)]
  simp only [Option.any_map, Option.any_eq_true, declares_infoOf, DeclaredAbove]
  constructor
  · rintro ⟨b, hb, d, hd, hm⟩
    exact ⟨b, d, hb, hd, hm⟩
  · rintro ⟨b, d, hb, hd, hm⟩
    exact ⟨b, hb, d, hd, hm⟩

theorem leavesAbove_iff {key : Text} {d : SourceFile × ClassDecl}
    (hd : declared? fs key = some d) :
    (ofFiles fs).leavesProject ((ofFiles fs).ancestors (infoOf d)) = true ↔ LeavesAbove fs key := by
  rw [leavesProject, any_ancestors_iff hd Option.isNone]
  simp [LeavesAbove]

/-- A name belongs to a declared class that is no trait. -/
def BelongsToClass (fs : List SourceFile) (name : Text) : Prop :=
  ∃ d, declared? fs (ClassName.key name) = some d ∧ d.2.kind ≠ .trait

theorem overrides_of_not_belongsToClass {name : Text} (h : ¬BelongsToClass fs name)
    (method : Text) : (ofFiles fs).overrides name method = .unknown := by
  unfold overrides class?
  rw [get?_ofFiles]
  cases hd : declared? fs (ClassName.key name) with
  | none => rfl
  | some d =>
      have htrait : (infoOf d).kind = .trait :=
        Classical.not_not.1 fun hkind => h ⟨d, hd, hkind⟩
      exact if_pos htrait

open Classical in
/-- Of a class the answer depends on what stands above it. -/
theorem overrides_of_belongsToClass {name : Text} (h : BelongsToClass fs name) (method : Text) :
    (ofFiles fs).overrides name method =
      if DeclaredAbove fs (ClassName.key name) method then .yes
      else if LeavesAbove fs (ClassName.key name) then .unknown
      else .no := by
  obtain ⟨d, hd, hkind⟩ := h
  have hclass : (ofFiles fs).class? name = some (infoOf d) := by
    rw [class?, get?_ofFiles, hd]
    rfl
  have hkind : (infoOf d).kind ≠ .trait := hkind
  unfold overrides
  rw [hclass]
  simp only [hkind, if_false, declaredAbove_iff hd, leavesAbove_iff hd]

/-- **The three answers about overriding, by reachability.**  A method is declared above its class
for certain when some declared class that can be reached has it, and for certain it is not when all
that can be reached is declared.  Nothing is known of traits and of classes that are declared
nowhere. -/
theorem overrides_iff_above (fs : List SourceFile) (name method : Text) :
    ((ofFiles fs).overrides name method = .yes ↔
      BelongsToClass fs name ∧ DeclaredAbove fs (ClassName.key name) method) ∧
    ((ofFiles fs).overrides name method = .no ↔
      BelongsToClass fs name ∧ ¬DeclaredAbove fs (ClassName.key name) method ∧
        ¬LeavesAbove fs (ClassName.key name)) ∧
    ((ofFiles fs).overrides name method = .unknown ↔
      ¬BelongsToClass fs name ∨
        (¬DeclaredAbove fs (ClassName.key name) method ∧ LeavesAbove fs (ClassName.key name))) := by
  by_cases hclass : BelongsToClass fs name
  · rw [overrides_of_belongsToClass hclass]
    by_cases hdeclared : DeclaredAbove fs (ClassName.key name) method
    · simp [hclass, hdeclared]
    · by_cases hleaves : LeavesAbove fs (ClassName.key name)
      · simp [hclass, hdeclared, hleaves]
      · simp [hclass, hdeclared, hleaves]
  · rw [overrides_of_not_belongsToClass hclass]
    simp [hclass]

end ClassIndex

end HintCheck
