/-
**The types of declarations and of their documentation.**

A declaration and the comment above it describe the same value in two dialects, `?string` and
`string|null`.  Both are read into one `HintCheck.Ty`, so that they can be compared.

Main definitions:

* `HintCheck.Atom` — the built-in types without parameters;
* `HintCheck.Ty` — a type; `HintCheck.Ty.undefined` stands where none was written;
* `HintCheck.Ty.kind`, `HintCheck.Ty.contains` — the outermost form of a type, and the forms that
  it admits;
* `HintCheck.Ty.same` — equality, in which the members of a union form a set;
* `HintCheck.Ty.members`, `HintCheck.Ty.expand` — the alternatives of a type.

Main results:

* `HintCheck.Ty.anyContains_eq`, `HintCheck.Ty.allIn_eq` — the list halves of the recursive
  definitions are `List.any` and `List.all`.
-/

import HintCheck.Text.Basic

set_option relaxedAutoImplicit false
set_option autoImplicit false

namespace HintCheck

/-- A built-in type without parameters. -/
inductive Atom where
  | int
  | float
  | string
  | bool
  | true
  | false
  | null
  | void
  | mixed
  /-- The class that the declaration stands in. -/
  | self
  /-- The class that a method is called on. -/
  | static
  | callable
  | object
  | iterable
  | resource
  | never
  /-- An array about whose values nothing is said. -/
  | array
  deriving DecidableEq, Repr

/-- A type, from either dialect. -/
inductive Ty where
  | atom (a : Atom)
  /-- A class or an interface, named as it was written. -/
  | named (name : Text)
  /-- Arrays of arrays of an element, `depth` of them. -/
  | array (element : Ty) (depth : Nat)
  /-- A class with type parameters. -/
  | generic (name : Text) (params : List Ty)
  | union (members : List Ty)
  /-- The declaration's short form `?T`. -/
  | optional (inner : Ty)
  /-- No type was written. -/
  | undefined
  deriving Repr

namespace Ty

instance : Inhabited Ty := ⟨undefined⟩

/-! ### Forms -/

/-- The outermost form of a type. -/
inductive Kind where
  | atom (a : Atom)
  | named
  | array
  | generic
  | union
  | optional
  | undefined
  deriving DecidableEq, Repr

/-- The outermost form of a type. -/
def kind : Ty → Kind
  | atom a => .atom a
  | named _ => .named
  | array _ _ => .array
  | generic _ _ => .generic
  | union _ => .union
  | optional _ => .optional
  | undefined => .undefined

/-- Whether a type was written. -/
def isDefined : Ty → Bool
  | undefined => false
  | _ => true

mutual

/-- Whether a type is of a form, or a union or `?T` has a member that is.  A `?T` always admits
null. -/
def contains (k : Kind) : Ty → Bool
  | union ms => k == .union || anyContains k ms
  | optional t => k == .optional || k == .atom .null || contains k t
  | t => t.kind == k

/-- Whether some type of a list contains a form. -/
def anyContains (k : Kind) : List Ty → Bool
  | [] => false
  | t :: ts => contains k t || anyContains k ts

end

theorem anyContains_eq (k : Kind) (ts : List Ty) : anyContains k ts = ts.any (contains k) := by
  induction ts with
  | nil => rfl
  | cons t ts ih => simp [anyContains, ih]

/-- Whether a type admits null. -/
def admitsNull (t : Ty) : Bool := t.contains (.atom .null)

/-! ### Equality -/

mutual

/-- Equality of types; two unions are equal when they have as many members and every member of the
first is in the second. -/
def same : Ty → Ty → Bool
  | atom a, atom b => a == b
  | named a, named b => a == b
  | array e d, array e' d' => d == d' && same e e'
  | generic n ps, generic n' ps' => n == n' && sameEach ps ps'
  | union as, union bs => as.length == bs.length && allIn as bs
  | optional a, optional b => same a b
  | undefined, undefined => true
  | _, _ => false

/-- Equality of two lists of types, place by place. -/
def sameEach : List Ty → List Ty → Bool
  | [], [] => true
  | a :: as, b :: bs => same a b && sameEach as bs
  | _, _ => false

/-- Whether every type of the first list has an equal in the second. -/
def allIn : List Ty → List Ty → Bool
  | [], _ => true
  | a :: as, bs => bs.any (same a) && allIn as bs

end

theorem allIn_eq (as bs : List Ty) : allIn as bs = as.all fun a => bs.any (same a) := by
  induction as with
  | nil => rfl
  | cons a as ih => simp [allIn, ih]

instance : BEq Ty := ⟨same⟩

/-! ### Alternatives -/

/-- The members of a union, or the type itself. -/
def members : Ty → List Ty
  | union ms => ms
  | t => [t]

/-- The alternatives of a type; `?T` stands for null and then `T`. -/
def expand : Ty → List Ty
  | optional t => atom .null :: expand t
  | union ms => ms
  | t => [t]

end Ty

end HintCheck
