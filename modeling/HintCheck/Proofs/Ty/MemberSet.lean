/-
**A union is the set of its members.**

A union does not depend on how its members were grouped, nor on how often they were given, and up to
equality it does not depend on their order.  Equality is an equivalence on types whose unions repeat
nothing; types in normal form are such types.

Main results:

* `HintCheck.Ty.length_le_of_inclusion` — an inclusion of pairwise different elements is in a list
  that is no shorter;
* `HintCheck.Ty.same_collapse` — two lists of members with an inclusion of as many give equal types;
* `HintCheck.Ty.same_equivalence` — **equality is an equivalence**;
* `HintCheck.Ty.unionOf_pair`, `HintCheck.Ty.unionOf_append_self`, `HintCheck.Ty.same_unionOf_perm`
  — grouping, repetition and order;
* `HintCheck.Ty.union_is_set` — **a union is the set of its members.**
-/

import HintCheck.Proofs.Ty.Normal

set_option relaxedAutoImplicit false
set_option autoImplicit false

namespace HintCheck

namespace Ty

/-! ### Equality as an equivalence -/

/-- **Equality is an equivalence** on types whose unions repeat nothing. -/
theorem same_equivalence :
    Equivalence fun a b : {t : Ty // DistinctMembers t} => same a.1 b.1 = true where
  refl a := same_refl a.1
  symm {a _} h := same_symm a.2 h
  trans h h' := same_trans h h'

/-! ### Grouping and repetition -/

/-- A union of two unions is the union of all their members. -/
theorem unionOf_pair (ts us : List Ty) : unionOf [unionOf ts, unionOf us] = unionOf (ts ++ us) := by
  calc unionOf [unionOf ts, unionOf us] = unionOf (ts ++ [unionOf us]) :=
        unionOf_append [] ts [unionOf us]
    _ = unionOf (ts ++ us) := by simpa using unionOf_append ts us []

/-- Giving the members of a union twice changes nothing. -/
theorem unionOf_append_self (ts : List Ty) : unionOf (ts ++ ts) = unionOf ts := by
  have hdedup : dedup (flattenAll ts ++ flattenAll ts) = dedup (flattenAll ts) := by
    rw [dedup, List.foldl_append]
    exact foldl_insertNew_of_forall fun t ht => exists_same_of_mem_dedup ht
  rw [unionOf, flattenAll_append, hdedup, unionOf]

/-! ### Order -/

/-- When no two elements of a list are sent to one of another, the other is no shorter. -/
theorem length_le_of_inclusion {α β : Type} {r : α → β → Prop} {as : List α} {bs : List β}
    (hin : ∀ a ∈ as, ∃ b ∈ bs, r a b)
    (hone : as.Pairwise fun a a' => ∀ b ∈ bs, r a b → ¬r a' b) : as.length ≤ bs.length := by
  refine Nat.not_lt.1 fun hlen => ?_
  -- as many elements as the other list has are onto already, so that the next one is one too many
  obtain ⟨a, rest, hdrop⟩ : ∃ a rest, as.drop bs.length = a :: rest := by
    cases hd : as.drop bs.length with
    | nil =>
        rw [List.drop_eq_nil_iff] at hd
        omega
    | cons a rest => exact ⟨a, rest, rfl⟩
  have hsplit : as = as.take bs.length ++ a :: rest := by rw [← hdrop, List.take_append_drop]
  rw [hsplit, List.pairwise_append] at hone
  have honto : ∀ b ∈ bs, ∃ a' ∈ as.take bs.length, r a' b :=
    exists_of_inclusion (by rw [List.length_take]; omega)
      (fun x hx => hin x (List.mem_of_mem_take hx)) hone.1
  obtain ⟨b, hb, hab⟩ := hin a (by rw [hsplit]; simp)
  obtain ⟨a', ha', hr⟩ := honto b hb
  exact hone.2.2 a' ha' a (by simp) b hb hr hab

/-- Two lists of as many members, the first included in the second, give equal types. -/
theorem same_collapse {as bs : List Ty} (hlen : as.length = bs.length)
    (hin : ∀ a ∈ as, ∃ b ∈ bs, same a b = true) : same (collapse as) (collapse bs) = true := by
  match as, bs with
  | [], [] => rfl
  | [a], [b] => simpa [collapse] using hin
  | a :: a' :: as, b :: b' :: bs => exact same_union_iff.2 ⟨hlen, hin⟩

theorem distinctMembers_of_mem_flatten {t m : Ty} (h : DistinctMembers t) (hm : m ∈ flatten t) :
    DistinctMembers m := by
  refine of_mem_flatten ?_ ?_ (.atom .null) (fun _ _ h => h) h hm
  · intro ms h
    cases h with
    | union _ hms => exact hms
  · intro t h
    cases h with
    | optional ht => exact ht

variable {ts us : List Ty}

theorem distinctMembers_of_mem_flattenAll (h : ∀ t ∈ ts, DistinctMembers t) {m : Ty}
    (hm : m ∈ flattenAll ts) : DistinctMembers m := by
  obtain ⟨t, ht, hm⟩ := mem_flattenAll_iff.1 hm
  exact distinctMembers_of_mem_flatten (h t ht) hm

/-- Each alternative of some types has an equal among those of the same types in another order. -/
theorem exists_same_of_perm (hts : ∀ t ∈ ts, DistinctMembers t) (h : us.Perm ts) :
    ∀ a ∈ dedup (flattenAll us), ∃ b ∈ dedup (flattenAll ts), same a b = true := by
  intro a ha
  have ha : a ∈ flattenAll ts := by
    obtain ⟨u, hu, ha⟩ := mem_flattenAll_iff.1 (mem_of_mem_dedup ha)
    exact mem_flattenAll_iff.2 ⟨u, h.mem_iff.1 hu, ha⟩
  obtain ⟨b, hb, hs⟩ := exists_same_of_mem_dedup ha
  have hbmem := mem_of_mem_dedup hb
  exact ⟨b, hb, same_symm (distinctMembers_of_mem_flattenAll hts hbmem) hs⟩

theorem length_dedup_le_of_perm (hts : ∀ t ∈ ts, DistinctMembers t) (h : us.Perm ts) :
    (dedup (flattenAll us)).length ≤ (dedup (flattenAll ts)).length := by
  have hus : ∀ u ∈ us, DistinctMembers u := fun u hu => hts u (h.mem_iff.1 hu)
  refine length_le_of_inclusion (exists_same_of_perm hts h) ?_
  refine List.Pairwise.imp_of_mem ?_ (pairwise_dedup (flattenAll us))
  intro a a' _ ha' hne b _ hab hab'
  have ha' := distinctMembers_of_mem_flattenAll hus (mem_of_mem_dedup ha')
  rw [same_trans hab (same_symm ha' hab')] at hne
  cases hne

/-- Up to equality, a union does not depend on the order of its members. -/
theorem same_unionOf_perm (hts : ∀ t ∈ ts, DistinctMembers t) (h : us.Perm ts) :
    same (unionOf us) (unionOf ts) = true := by
  have hus : ∀ u ∈ us, DistinctMembers u := fun u hu => hts u (h.mem_iff.1 hu)
  exact same_collapse
    (Nat.le_antisymm (length_dedup_le_of_perm hts h) (length_dedup_le_of_perm hus h.symm))
    (exists_same_of_perm hts h)

/-- **A union is the set of its members.**  Equality is an equivalence on all types whose unions
repeat nothing, as those in normal form do not; a union does not depend on the grouping and the
repetition of its members, and up to equality not on their order. -/
theorem union_is_set :
    (∀ t : Ty, NormalOrAbsent t → DistinctMembers t) ∧
    (Equivalence fun a b : {t : Ty // DistinctMembers t} => same a.1 b.1 = true) ∧
    (∀ ts us : List Ty, unionOf [unionOf ts, unionOf us] = unionOf (ts ++ us)) ∧
    (∀ ts us : List Ty, (∀ t ∈ ts, DistinctMembers t) → us.Perm ts →
      same (unionOf us) (unionOf ts) = true) ∧
    (∀ ts : List Ty, unionOf (ts ++ ts) = unionOf ts) := by
  refine ⟨fun t h => h.distinctMembers, same_equivalence, unionOf_pair, ?_, unionOf_append_self⟩
  intro ts us hts h
  exact same_unionOf_perm hts h

/-- Arrays of `int|string` and of `string|int` are equal both ways, and so are the unions of
`string|null` and `?int` in either order, whose members come in different orders. -/
theorem union_is_set_of_swapped :
    (same (array (union [atom .int, atom .string]) 1) (array (union [atom .string, atom .int]) 1) =
        true ∧
      same (array (union [atom .string, atom .int]) 1) (array (union [atom .int, atom .string]) 1) =
        true) ∧
    (unionOf [union [atom .string, atom .null], optional (atom .int)] =
        union [atom .string, atom .null, atom .int] ∧
      unionOf [optional (atom .int), union [atom .string, atom .null]] =
        union [atom .int, atom .null, atom .string] ∧
      same (union [atom .string, atom .null, atom .int])
        (union [atom .int, atom .null, atom .string]) = true) := by
  obtain ⟨hnormal, hequality, _, hperm, _⟩ := union_is_set
  have hpair : ∀ a b : Atom, a ≠ b → Normal (union [atom a, atom b]) := by
    intro a b hne
    simp [Normal, NormalAll, IsMember, same, hne]
  have harray : ∀ a b : Atom, a ≠ b → DistinctMembers (array (union [atom a, atom b]) 1) :=
    fun a b hne => .array 1 (hnormal _ (hpair a b hne).normalOrAbsent)
  have hint : Normal (optional (atom .int)) := ⟨trivial, trivial⟩
  have hsame : same (array (union [atom .int, atom .string]) 1)
      (array (union [atom .string, atom .int]) 1) = true := by decide
  refine ⟨⟨hsame, ?_⟩, rfl, rfl, ?_⟩
  · exact hequality.symm (x := ⟨_, harray .int .string (by decide)⟩)
      (y := ⟨_, harray .string .int (by decide)⟩) hsame
  · refine hperm [optional (atom .int), union [atom .string, atom .null]]
      [union [atom .string, atom .null], optional (atom .int)] ?_ (List.Perm.swap ..)
    simpa using ⟨hnormal _ hint.normalOrAbsent,
      hnormal _ (hpair .string .null (by decide)).normalOrAbsent⟩

end Ty

end HintCheck
