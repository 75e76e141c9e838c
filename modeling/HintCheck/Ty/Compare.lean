/-
**Comparing a documented type with a declared one.**

A documented type fits a declaration when each of its alternatives is possible there and each
alternative of the declaration is covered.  The comparison lists the alternatives that are wrong
and those that are missing.

Main definitions:

* `HintCheck.Ty.sameClass` — two class names that may mean the same class;
* `HintCheck.Ty.compatible` — whether a documented alternative is possible for a declared one;
* `HintCheck.Ty.compare` — the wrong and the missing alternatives.

Main results:

* `HintCheck.Ty.sizeOf_le_of_mem_expand` — the alternatives of a type are no larger than it is;
* `HintCheck.Ty.sameClass_comm` — matching of class names is symmetric.
-/

import HintCheck.ClassName
import HintCheck.Ty.Basic

set_option relaxedAutoImplicit false
set_option autoImplicit false

namespace HintCheck

namespace Ty

open Text

/-! ### Class names -/

/-- A class name in small letters and without separators in front. -/
def classKey (name : Text) : Text := lower (ClassName.relative name)

/-- Whether the second name consists of the last segments of the first. -/
def endsWithSegments (long short : Text) : Bool := ('\\' :: short).isSuffixOf long

/-- Whether two names may mean the same class.  Imports are not known here, so a name matches every
longer one that ends with its segments. -/
def sameClass (a b : Text) : Bool :=
  classKey a == classKey b || endsWithSegments (classKey a) (classKey b) ||
    endsWithSegments (classKey b) (classKey a)

theorem sameClass_comm (a b : Text) : sameClass a b = sameClass b a := by
  simp only [sameClass, Bool.or_assoc, BEq.comm (a := classKey a)]
  congr 1
  exact Bool.or_comm _ _

/-- Whether a class name is the one of closures. -/
def isClosure (name : Text) : Bool := sameLetters (ClassName.lastSegment name) "closure".toList

/-! ### Alternatives -/

theorem sizeOf_le_of_mem_expand {t m : Ty} (h : m ∈ expand t) : sizeOf m ≤ sizeOf t := by
  induction t using expand.induct with
  | case1 t ih =>
    simp only [expand, List.mem_cons] at h
    rcases h with rfl | h
    · simp
      cases t <;> simp <;> omega
    · have := ih h
      simp
      omega
  | case2 ms =>
    have := List.sizeOf_lt_of_mem (show m ∈ ms from h)
    simp
    omega
  | case3 t h₁ h₂ =>
    simp [expand] at h
    subst h
    exact Nat.le_refl _

/-- An element about which nothing definite is said. -/
def isWildcard : Ty → Bool
  | atom .mixed => true
  | atom .array => true
  | _ => false

/-- Whether a documented built-in type is possible for a declared one. -/
def atomFits : Atom → Atom → Bool
  | _, .mixed => true
  | .mixed, _ => false
  | .bool, .true => true
  | .bool, .false => true
  | .true, .bool => true
  | .false, .bool => true
  | .self, .object => true
  | .static, .object => true
  | .object, .self => true
  | .object, .static => true
  | .array, .iterable => true
  | a, b => a == b

/-- The built-in types that stand for some object. -/
def isSomeObject : Atom → Bool
  | .self => true
  | .static => true
  | .object => true
  | _ => false

/-- Whether a built-in type and a class without parameters may mean the same; of the callable
values only closures are objects. -/
def atomMeetsClass (a : Atom) (name : Text) : Bool :=
  isSomeObject a || (a == .callable && isClosure name)

/-- Whether a declared built-in type takes every object. -/
def takesObjects : Atom → Bool
  | .mixed => true
  | .iterable => true
  | _ => false

/-- Whether a documented array is possible for a declared built-in type. -/
def arrayFitsAtom : Atom → Bool
  | .mixed => true
  | .array => true
  | .iterable => true
  | _ => false

/-- Whether a documented alternative is possible for a declared one.  The relation has a direction:
a declared `array` admits every array, but a documented one does not. -/
def compatible (doc decl : Ty) : Bool :=
  match doc, decl with
  | atom a, atom b => atomFits a b
  | atom a, undefined => a != .mixed
  | atom a, named n => atomMeetsClass a n
  | atom a, generic _ _ => isSomeObject a
  | undefined, _ => true
  | _, undefined => true
  | named n, atom a => takesObjects a || atomMeetsClass a n
  | generic _ _, atom a => takesObjects a || isSomeObject a
  | named n, named m => sameClass n m
  | named n, generic m _ => sameClass n m
  | generic n _, named m => sameClass n m
  | generic n _, generic m _ => sameClass n m
  | array _ _, atom a => arrayFitsAtom a
  | array e d, array e' d' =>
    isWildcard e || isWildcard e' ||
      (d == d' && e.expand.attach.any fun m => e'.expand.any fun m' => compatible m.1 m')
  | _, atom .mixed => true
  | _, _ => false
termination_by sizeOf doc
decreasing_by
  have := sizeOf_le_of_mem_expand m.2
  simp
  omega

/-- Whether some alternative of the first type is possible for some alternative of the second. -/
def overlap (doc decl : Ty) : Bool :=
  doc.expand.any fun m => decl.expand.any fun m' => compatible m m'

theorem compatible_array (e e' : Ty) (d d' : Nat) :
    compatible (array e d) (array e' d') =
      (isWildcard e || isWildcard e' || (d == d' && overlap e e')) := by
  rw [compatible]
  simp [overlap]

/-! ### The comparison -/

/-- What a comparison found, in the order in which the two types were written. -/
structure Comparison where
  /-- The documented alternatives that are not possible. -/
  wrong : List Ty
  /-- The declared alternatives that are not covered. -/
  missing : List Ty

/-- A comparison without findings. -/
def Comparison.none : Comparison := ⟨[], []⟩

/-- Whether a comparison found nothing. -/
def Comparison.isEmpty (c : Comparison) : Bool := c.wrong.isEmpty && c.missing.isEmpty

/-- The type `mixed`. -/
def isMixed : Ty → Bool
  | atom .mixed => true
  | _ => false

/-- Compares a documented with a declared type.  Nothing is found when one of them is absent or the
declaration admits everything; a documented `mixed` is wrong but covers every alternative. -/
def compare (doc decl : Ty) : Comparison :=
  if !doc.isDefined || !decl.isDefined || decl.expand.any isMixed then .none
  else
    { wrong := doc.expand.filter fun m => !decl.expand.any fun m' => compatible m m'
      missing := decl.expand.filter fun m' =>
        !doc.expand.any isMixed && !doc.expand.any fun m => compatible m m' }

end Ty

end HintCheck
