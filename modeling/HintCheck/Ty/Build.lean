/-
**Types in normal form.**

The functions of this module build composite types so that each type has one shape: unions are
flat, without repetition and without absent members, null is said once, and arrays of arrays are
merged into one array of a greater depth.

Main definitions:

* `HintCheck.Ty.unionOf` — the union of types;
* `HintCheck.Ty.nullable` — a type together with null, in the short form where it exists;
* `HintCheck.Ty.arrayOf` — arrays of a type, to a depth, and `HintCheck.Ty.arrayOfWord`, the same
  where depths are machine words;
* `HintCheck.Ty.Normal` — the types that are in normal form.

Main results:

* `HintCheck.Ty.flattenAll_append` — flattening goes through lists member by member;
* `HintCheck.Ty.arrayOf_zero` — no array level leaves the element as it is.
-/

import HintCheck.Ty.Basic

set_option relaxedAutoImplicit false
set_option autoImplicit false

namespace HintCheck

namespace Ty

/-! ### Unions -/

mutual

/-- The alternatives that a type brings into a union: those of its members, and null after the
inner type of a `?T`. -/
def flatten : Ty → List Ty
  | undefined => []
  | union ms => flattenAll ms
  | optional t => flatten t ++ [atom .null]
  | t => [t]

/-- The alternatives of several types, in order. -/
def flattenAll : List Ty → List Ty
  | [] => []
  | t :: ts => flatten t ++ flattenAll ts

end

theorem flattenAll_eq (ts : List Ty) : flattenAll ts = ts.flatMap flatten := by
  induction ts with
  | nil => rfl
  | cons t ts ih => simp [flattenAll, ih]

theorem flattenAll_append (ts us : List Ty) :
    flattenAll (ts ++ us) = flattenAll ts ++ flattenAll us := by
  simp [flattenAll_eq]

/-- Adds a type at the end unless an equal one is there. -/
def insertNew (kept : List Ty) (t : Ty) : List Ty :=
  if kept.any (same · t) then kept else kept ++ [t]

/-- The types of a list without the later ones of equal types. -/
def dedup (ts : List Ty) : List Ty := ts.foldl insertNew []

/-- A union of alternatives that are already flat and different: none is no type, and one is that
type itself. -/
def collapse : List Ty → Ty
  | [] => undefined
  | [t] => t
  | ts => union ts

/-- The union of types. -/
def unionOf (ts : List Ty) : Ty := collapse (dedup (flattenAll ts))

/-! ### Null and arrays -/

/-- A type together with null.  Where null is admitted already nothing changes, and to a union it
is added as a member. -/
def nullable : Ty → Ty
  | undefined => undefined
  | atom .null => atom .null
  | atom .mixed => atom .mixed
  | optional t => optional t
  | union ms => if (union ms).admitsNull then union ms else unionOf [union ms, atom .null]
  | t => optional t

/-- Arrays of a type to a depth, where `sum` adds the levels of an element that is an array. -/
def arrayBy (sum : Nat → Nat → Nat) (element : Ty) (depth : Nat) : Ty :=
  if depth = 0 then element
  else match element with
    | array inner inside => array inner (sum inside depth)
    | other => array other depth

/-- Arrays of a type to a depth; the levels of an element that is an array are added. -/
def arrayOf (element : Ty) (depth : Nat) : Ty := arrayBy (· + ·) element depth

/-- Arrays of a type to a depth, where depths are words of 64 bits: when the levels are added, what
does not fit into a word is lost.  No text is long enough for that. -/
def arrayOfWord (element : Ty) (depth : UInt64) : Ty :=
  arrayBy (fun inside depth => (UInt64.ofNat inside + UInt64.ofNat depth).toNat) element depth.toNat

@[simp] theorem arrayOf_zero (element : Ty) : arrayOf element 0 = element := rfl

/-! ### Normal form -/

/-- Whether a type can stand in a union as one member. -/
def IsMember : Ty → Prop
  | union _ => False
  | optional _ => False
  | undefined => False
  | _ => True

/-- Whether a type can stand behind the question mark of `?T`. -/
def IsOptionable : Ty → Prop
  | atom .null => False
  | atom .mixed => False
  | union _ => False
  | optional _ => False
  | undefined => False
  | _ => True

/-- Whether a type can be the element of an array. -/
def IsElement : Ty → Prop
  | array _ _ => False
  | undefined => False
  | _ => True

mutual

/-- The types in normal form.  A parameter of a generic class may be absent. -/
def Normal : Ty → Prop
  | undefined => False
  | atom _ => True
  | named _ => True
  | array e d => 1 ≤ d ∧ IsElement e ∧ Normal e
  | generic _ ps => NormalParams ps
  | union ms => 2 ≤ ms.length ∧ (∀ m ∈ ms, IsMember m) ∧
      ms.Pairwise (fun a b => same a b = false) ∧ NormalAll ms
  | optional t => IsOptionable t ∧ Normal t

/-- Every type of a list is in normal form. -/
def NormalAll : List Ty → Prop
  | [] => True
  | t :: ts => Normal t ∧ NormalAll ts

/-- Every type of a list is absent or in normal form. -/
def NormalParams : List Ty → Prop
  | [] => True
  | t :: ts => (t.isDefined = true → Normal t) ∧ NormalParams ts

end

/-! ### One spelling of null -/

mutual

/-- The type in which every `?T`, at any depth, is spelled as the union of `T` and null. -/
def denull : Ty → Ty
  | optional t => unionOf [denull t, atom .null]
  | union ms => unionOf (denullAll ms)
  | array e d => arrayOf (denull e) d
  | generic n ps => generic n (denullAll ps)
  | t => t

/-- The types of a list with one spelling of null. -/
def denullAll : List Ty → List Ty
  | [] => []
  | t :: ts => denull t :: denullAll ts

end

end Ty

end HintCheck
