/-
**The names of classes.**

A name that is no keyword is the name of a class.  The reader takes names for classes at several
places: on their own, in front of parameters, and where a bracket is not closed or means nothing
there.  At all of them but one a keyword keeps its meaning.  Behind a name with parameters in
parentheses the reader looks for `callable` alone, so that `int(3)` is a class with the name `int`.

Main definitions:

* `HintCheck.Ty.EveryClass` — what all names of classes in a type satisfy, at any depth;
* `HintCheck.Ty.CalledIn` — a name stands in front of a parenthesis in a text;
* `HintCheck.Ty.TakenForClass` — the names that classes can have in what is read from a text.

Main results:

* `HintCheck.Ty.everyClass_unionOf`, `HintCheck.Ty.everyClass_nullable`,
  `HintCheck.Ty.everyClass_arrayOf` — no classes are added where types are built;
* `HintCheck.Ty.keptByReading_everyClass` — each step of the reader, by itself;
* `HintCheck.Ty.keyword_classes_are_called` — **a class has the name of a keyword only where
  parameters in parentheses follow it.**
-/

import HintCheck.Proofs.Ty.Grammar
import HintCheck.Proofs.Ty.Reading
import HintCheck.Ty.Compare

set_option relaxedAutoImplicit false
set_option autoImplicit false

namespace HintCheck

namespace Ty

open Text

/-! ### The classes in a type -/

section EveryClass

variable (plain withParams : Text → Prop)

mutual

/-- Every name of a class in a type, at any depth, is one of the names for classes without
parameters or of those for classes with parameters. -/
def EveryClass : Ty → Prop
  | named n => plain n
  | generic n ps => withParams n ∧ EveryClassAll ps
  | array e _ => EveryClass e
  | optional t => EveryClass t
  | union ms => EveryClassAll ms
  | atom _ => True
  | undefined => True

/-- Every name of a class in the types of a list is one of these. -/
def EveryClassAll : List Ty → Prop
  | [] => True
  | t :: ts => EveryClass t ∧ EveryClassAll ts

end

variable {plain withParams}

theorem everyClassAll_iff {ts : List Ty} :
    EveryClassAll plain withParams ts ↔ ∀ t ∈ ts, EveryClass plain withParams t := by
  induction ts with
  | nil => simp [EveryClassAll]
  | cons t ts ih => simp [EveryClassAll, ih]

/-! ### Building types -/

theorem everyClass_collapse {ms : List Ty} (h : ∀ m ∈ ms, EveryClass plain withParams m) :
    EveryClass plain withParams (collapse ms) := by
  unfold collapse
  split
  · trivial
  · exact h _ (by simp)
  · exact everyClassAll_iff.2 h

/-- A union has no other classes than the types that it is built from. -/
theorem everyClass_unionOf {ts : List Ty} (h : ∀ t ∈ ts, EveryClass plain withParams t) :
    EveryClass plain withParams (unionOf ts) := by
  refine everyClass_collapse fun m hm => ?_
  obtain ⟨t, ht, hm⟩ := mem_flattenAll_iff.1 (mem_of_mem_dedup hm)
  exact of_mem_flatten (fun ms hms => everyClassAll_iff.1 hms) (fun t ht => ht) trivial
    (fun m _ hm => hm) (h t ht) hm

theorem everyClass_nullable {t : Ty} (h : EveryClass plain withParams t) :
    EveryClass plain withParams (nullable t) := by
  cases t with
  | atom a => cases a <;> exact trivial
  | union ms =>
      rw [nullable]
      split
      · exact h
      · exact everyClass_unionOf (by simpa [EveryClass] using h)
  | _ => exact h

theorem everyClass_arrayOf {e : Ty} (h : EveryClass plain withParams e) (d : Nat) :
    EveryClass plain withParams (arrayOf e d) := by
  unfold arrayOf arrayBy
  split
  · exact h
  · cases e <;> exact h

/-! ### Keywords -/

/-- The types that keywords stand for have no classes. -/
theorem everyClass_of_keyword {name : Text} {t : Ty} (h : keyword name = some t) :
    EveryClass plain withParams t := by
  have hall : ∀ row ∈ keywords, EveryClass plain withParams row.2 := by
    simp [keywords, EveryClass, EveryClassAll]
  obtain ⟨row, hrow, rfl⟩ := Option.map_eq_some_iff.1 h
  exact hall row (List.mem_of_find?_eq_some hrow)

end EveryClass

/-! ### The steps of the reader -/

/-- A name with an opening parenthesis behind it stands in a text; only blanks come in between. -/
def CalledIn (text name : Text) : Prop := ∃ gap, AllBlank gap ∧ name ++ gap ++ ['('] <:+: text

/-- A name that a class can have in what is read from a text: no keyword, unless it stands there in
front of a parenthesis and is not `callable`. -/
def TakenForClass (text name : Text) : Prop :=
  keyword name = none ∨ (sameLetters name "callable".toList = false ∧ CalledIn text name)

/-- Each step of the reader takes no other names for classes. -/
theorem keptByReading_everyClass {text : Text} {plain : Text → Prop}
    (htaken : ∀ n, TakenForClass text n → plain n) :
    KeptByReading text fun _ t => EveryClass plain (fun n => keyword n = none) t where
  widen _ h := h
  absent _ := trivial
  builtin _ _ := trivial
  word {part} _ _ := by
    cases hkey : keyword part with
    | none => exact htaken _ (Or.inl hkey)
    | some t => exact everyClass_of_keyword hkey
  params {_ name _ params} _ h := by
    unfold ofParams
    split
    · refine everyClass_arrayOf ?_ 1
      unfold valueType
      split
      · next raw t hlast =>
        split
        · trivial
        · exact (h _ (List.mem_of_getLast? hlast)).2
      · trivial
    · next hcontainer =>
      split
      · next hkey => exact absurd (isArrayLike_of_keyword hkey) hcontainer
      · next hkey => exact everyClass_of_keyword hkey
      · next hkey =>
        refine ⟨hkey, everyClassAll_iff.2 fun t ht => ?_⟩
        obtain ⟨p, hp, rfl⟩ := List.mem_map.1 ht
        exact (h p hp).2
  unclosed {part name tail} _ hname := by
    obtain ⟨hopens, w, gap, _, rfl⟩ := named?_eq_some hname
    exact htaken _ (Or.inl (keyword_eq_none_of_mem hopens (by simp)))
  shape {part name tail} _ hname := by
    obtain ⟨hopens, w, gap, _, rfl⟩ := named?_eq_some hname
    unfold ofShape
    split
    · exact everyClass_arrayOf (e := atom .mixed) trivial 1
    · split
      · trivial
      · exact htaken _ (Or.inl (keyword_eq_none_of_mem hopens (by simp)))
  callable {part name tail} hpart hname := by
    obtain ⟨_, w, gap, hgap, rfl⟩ := named?_eq_some hname
    unfold ofCallable
    split
    · trivial
    · next hcallable =>
      have hcalled : name ++ gap ++ ['('] <:+: w ++ (name ++ gap ++ '(' :: tail) :=
        ⟨w, tail, by simp⟩
      exact htaken _ (Or.inr ⟨by simpa using hcallable, gap, hgap, hcalled.trans hpart⟩)
  unionOf h := everyClass_unionOf h
  nullable h := everyClass_nullable h
  arrayOf {_ _ _ d} _ _ h := everyClass_arrayOf h d

/-- **A class has the name of a keyword only where parameters in parentheses follow it.**  Nothing
else in any text makes a keyword a class, and a class with parameters never has the name of one.
So a text in which no keyword but `callable` stands in front of a parenthesis is read without such
classes; and a word in front of balanced parentheses is a class, keyword or not, unless it is
`callable`. -/
theorem keyword_classes_are_called (text : Text) :
    EveryClass (TakenForClass text) (fun n => keyword n = none) (read text) ∧
    ((∀ n, CalledIn text n → keyword n = none ∨ sameLetters n "callable".toList = true) →
      EveryClass (fun n => keyword n = none) (fun n => keyword n = none) (read text)) ∧
    ∀ name inside : Text, text = name ++ '(' :: (inside ++ [')']) → IsWord name →
      sameLetters name "callable".toList = false → Balanced inside → read text = named name := by
  refine ⟨(keptByReading_everyClass fun n hn => hn).read, ?_, ?_⟩
  · intro hcalled
    refine (keptByReading_everyClass fun n hn => ?_).read
    rcases hn with hnone | ⟨hcallable, hn⟩
    · exact hnone
    · refine (hcalled n hn).resolve_right ?_
      rw [hcallable]
      exact Bool.false_ne_true
  · rintro name inside rfl hname hcallable hinside
    rw [read_parens hname hinside, ofCallable, hcallable]
    rfl

/-- A keyword that is a class, and a text without parentheses. -/
theorem keyword_classes_are_called_of_string :
    (keyword "String".toList = some (atom .string) ∧
      read "String(a|b)".toList = named "String".toList) ∧
    EveryClass (fun n => keyword n = none) (fun n => keyword n = none)
      (read "A<String|int{3}>".toList) := by
  constructor
  · obtain ⟨-, -, hclass⟩ := keyword_classes_are_called "String(a|b)".toList
    exact ⟨rfl, hclass "String".toList "a|b".toList rfl (by decide) (by decide) (by decide)⟩
  · obtain ⟨-, hclasses, -⟩ := keyword_classes_are_called "A<String|int{3}>".toList
    refine hclasses fun n hn => ?_
    obtain ⟨gap, _, hstands⟩ := hn
    have hparen : '(' ∈ "A<String|int{3}>".toList := hstands.subset (by simp)
    exact absurd hparen (by decide)

/-- With a number in parentheses behind it `int` is a class, which is not compatible with the
built-in type. -/
theorem not_everyClass_of_called_int :
    keyword "int".toList = some (atom .int) ∧
      read "int(3)".toList = named "int".toList ∧
      ¬ EveryClass (fun n => keyword n = none) (fun n => keyword n = none)
        (read "int(3)".toList) ∧
      compatible (read "int(3)".toList) (atom .int) = false := by
  have hword : IsWord "int".toList := by decide
  have hinside : Balanced "3".toList := by decide
  have hread : read "int(3)".toList = named "int".toList := read_parens hword hinside
  rw [hread]
  refine ⟨rfl, rfl, ?_, by simp [compatible, takesObjects, atomMeetsClass, isSomeObject]⟩
  intro hnone
  cases (hnone : keyword "int".toList = none)

end Ty

end HintCheck
