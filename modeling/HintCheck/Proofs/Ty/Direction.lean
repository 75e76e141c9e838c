/-
**The direction of compatibility.**

Compatibility is asked of a documented alternative and a declared one, and it matters which is
which: a declared `mixed` takes everything, a declared `array` takes every array and a declared
`iterable` takes arrays and objects, but documented, none of the three is possible where something
narrower is declared.  This module shows that nothing else has a direction.  Where none of the three
stands, at any depth that a comparison looks at, documentation and declaration can change places,
and then what was wrong is missing and what was missing is wrong.

Main definitions:

* `HintCheck.Ty.isDirected` — the built-in types that take more than they fit;
* `HintCheck.Ty.Undirected` — the types in which none of them stands;
* `HintCheck.Ty.Commutes` — a type that may stand on either side.

Main results:

* `HintCheck.Ty.Undirected.commutes_of_mem_expand`, `HintCheck.Ty.Undirected.commutes` — without
  direction, the alternatives of a type and the type itself commute;
* `HintCheck.Ty.wrong_compare_swap` — what is wrong one way round is missing the other way round;
* `HintCheck.Ty.compatible_symmetric` — **compatibility is symmetric but for `mixed`, `array` and
  `iterable`.**
-/

import HintCheck.Proofs.Ty.Compatible

set_option relaxedAutoImplicit false
set_option autoImplicit false

namespace HintCheck

namespace Ty

/-- Whether a declared built-in type takes alternatives that it does not fit itself. -/
def isDirected : Atom → Bool
  | .mixed => true
  | .array => true
  | .iterable => true
  | _ => false

/-- No directed built-in type stands in the elements of arrays, in unions or in `?T`, at any depth.
The parameters of a class are never compared, so nothing is asked of them. -/
inductive Undirected : Ty → Prop where
  | atom {a : Atom} (ha : isDirected a = false) : Undirected (.atom a)
  | named (n : Text) : Undirected (.named n)
  | array {e : Ty} (d : Nat) (he : Undirected e) : Undirected (.array e d)
  | generic (n : Text) (ps : List Ty) : Undirected (.generic n ps)
  | union {ms : List Ty} (hms : ∀ m ∈ ms, Undirected m) : Undirected (.union ms)
  | optional {t : Ty} (ht : Undirected t) : Undirected (.optional t)
  | undefined : Undirected .undefined

/-- A type that is compatible with the same undirected types on either side. -/
def Commutes (a : Ty) : Prop := ∀ b, Undirected b → compatible a b = compatible b a

/-! ### The parts of a type -/

theorem Undirected.of_mem_expand {t m : Ty} (h : Undirected t) (hm : m ∈ expand t) :
    Undirected m := by
  -- a type that has no alternatives but itself
  have hself : ∀ t, Undirected t → m ∈ [t] → Undirected m := by
    intro t ht hm
    rw [List.mem_singleton.1 hm]
    exact ht
  induction h with
  | atom ha => exact hself _ (.atom ha) hm
  | named n => exact hself _ (.named n) hm
  | array d he => exact hself _ (.array d he) hm
  | generic n ps => exact hself _ (.generic n ps) hm
  | union hms => exact hms m hm
  | optional _ ih =>
      rcases List.mem_cons.1 hm with rfl | hm
      · exact .atom (by decide)
      · exact ih hm
  | undefined => exact hself _ .undefined hm

theorem Undirected.any_isMixed {t : Ty} (h : Undirected t) : (expand t).any isMixed = false := by
  rw [List.any_eq_false]
  intro m hm
  cases h.of_mem_expand hm with
  | @atom a ha => cases a <;> first | exact Bool.false_ne_true | cases ha
  | _ => exact Bool.false_ne_true

/-! ### Types without alternatives -/

theorem isDirected_iff {a : Atom} :
    isDirected a = true ↔ a = .mixed ∨ a = .array ∨ a = .iterable := by
  cases a <;> simp [isDirected]

theorem ne_mixed_of_isDirected {a : Atom} (h : isDirected a = false) : a ≠ .mixed := by
  rintro rfl
  cases h

theorem atomFits_comm {a b : Atom} (ha : isDirected a = false) (hb : isDirected b = false) :
    atomFits a b = atomFits b a := by
  cases a <;> cases b <;>
    first | rfl | exact absurd ha (by decide) | exact absurd hb (by decide)

theorem takesObjects_of_isDirected {a : Atom} (h : isDirected a = false) :
    takesObjects a = false := by
  cases a <;> first | rfl | cases h

theorem arrayFitsAtom_of_isDirected {a : Atom} (h : isDirected a = false) :
    arrayFitsAtom a = false := by
  cases a <;> first | rfl | cases h

theorem Undirected.isWildcard_eq {e : Ty} (h : Undirected e) : isWildcard e = false := by
  cases h with
  | @atom a ha => cases a <;> first | rfl | cases ha
  | _ => rfl

theorem commutes_atom {a : Atom} (ha : isDirected a = false) : Commutes (atom a) := by
  have hne := ne_mixed_of_isDirected ha
  intro b hb
  cases hb with
  | atom hb => simpa [compatible] using atomFits_comm ha hb
  | named n => simp [compatible, takesObjects_of_isDirected ha]
  | generic n ps => simp [compatible, takesObjects_of_isDirected ha]
  | array d he => simp [compatible, arrayFitsAtom_of_isDirected ha]
  | union hms => simp [compatible, hne]
  | optional ht => simp [compatible, hne]
  | undefined => simp [compatible, hne]

/-- Of a class with parameters only the name is compared, as of one without. -/
theorem commutes_class (n : Text) (ps : List Ty) :
    Commutes (named n) ∧ Commutes (generic n ps) := by
  constructor
  all_goals
    intro b hb
    cases hb with
    | atom hb => simp [compatible, takesObjects_of_isDirected hb]
    | named m => simpa [compatible] using sameClass_comm n m
    | generic m qs => simpa [compatible] using sameClass_comm n m
    | _ => simp [compatible]

/-- What is no single alternative commutes: an absent type fits everything, and a union or a `?T`
fits nothing that was written. -/
theorem commutes_of_not_isMember {t : Ty} (ht : ¬IsMember t) : Commutes t := by
  have hcases : t = undefined ∨ (∃ ms, t = union ms) ∨ ∃ u, t = optional u := by
    cases t <;> simp_all [IsMember]
  intro b hb
  rcases hcases with rfl | ⟨ms, rfl⟩ | ⟨u, rfl⟩
  all_goals
    cases hb with
    | atom hb => simp [compatible, ne_mixed_of_isDirected hb]
    | _ => simp [compatible]

/-! ### Arrays -/

/-- A type that commutes has something compatible in a list on either side. -/
theorem any_compatible_comm {m : Ty} {ts : List Ty} (hm : Commutes m)
    (hts : ∀ t ∈ ts, Undirected t) :
    (ts.any fun t => compatible m t) = ts.any fun t => compatible t m := by
  induction ts with
  | nil => rfl
  | cons t ts ih =>
      rw [List.any_cons, List.any_cons, hm t (hts t (by simp)),
        ih fun u hu => hts u (List.mem_cons_of_mem t hu)]

/-- Elements overlap from either side when the alternatives of one of them commute. -/
theorem overlap_comm {e e' : Ty} (he : ∀ m ∈ expand e, Commutes m) (he' : Undirected e') :
    overlap e e' = overlap e' e := by
  rw [Bool.eq_iff_iff]
  simp only [overlap, List.any_eq_true]
  constructor
  · rintro ⟨m, hm, m', hm', h⟩
    exact ⟨m', hm', m, hm, by rw [← he m hm m' (he'.of_mem_expand hm'), h]⟩
  · rintro ⟨m', hm', m, hm, h⟩
    exact ⟨m, hm, m', hm', by rw [he m hm m' (he'.of_mem_expand hm'), h]⟩

theorem commutes_array {e : Ty} (d : Nat) (hwild : isWildcard e = false)
    (he : ∀ m ∈ expand e, Commutes m) : Commutes (array e d) := by
  intro b hb
  cases hb with
  | @atom a ha => simp [compatible, arrayFitsAtom_of_isDirected ha]
  | @array e' d' he' =>
      rw [compatible_array, compatible_array, hwild, he'.isWildcard_eq, overlap_comm he he',
        BEq.comm (a := d)]
  | _ => simp [compatible]

/-! ### Types with alternatives -/

/-- A type commutes when its alternatives do. -/
theorem commutes_of_expand {t : Ty} (h : ∀ m ∈ expand t, Commutes m) : Commutes t := by
  by_cases ht : IsMember t
  · exact h t (by simp [expand_of_isMember ht])
  · exact commutes_of_not_isMember ht

/-- **The alternatives of an undirected type commute.** -/
theorem Undirected.commutes_of_mem_expand {t m : Ty} (h : Undirected t) (hm : m ∈ expand t) :
    Commutes m := by
  induction h generalizing m with
  | atom ha =>
      rw [List.mem_singleton.1 hm]
      exact commutes_atom ha
  | named n =>
      rw [List.mem_singleton.1 hm]
      exact (commutes_class n []).1
  | array d he ih =>
      rw [List.mem_singleton.1 hm]
      exact commutes_array d he.isWildcard_eq fun m hm => ih hm
  | generic n ps =>
      rw [List.mem_singleton.1 hm]
      exact (commutes_class n ps).2
  | union _ ih => exact commutes_of_expand fun k hk => ih m hm hk
  | optional _ ih =>
      rcases List.mem_cons.1 hm with rfl | hm
      · exact commutes_atom (by decide)
      · exact ih hm
  | undefined =>
      rw [List.mem_singleton.1 hm]
      exact commutes_of_not_isMember id

theorem Undirected.commutes {t : Ty} (h : Undirected t) : Commutes t :=
  commutes_of_expand fun _ hm => h.commutes_of_mem_expand hm

/-! ### Both ways round -/

/-- What is wrong when documentation is compared with a declaration is missing when the two change
places. -/
theorem wrong_compare_swap {d f : Ty} (hd : Undirected d) (hf : Undirected f) :
    (compare d f).wrong = (compare f d).missing := by
  unfold compare
  rw [hd.any_isMixed, hf.any_isMixed, Bool.or_comm (!f.isDefined)]
  split
  · rfl
  · refine List.filter_congr fun m hm => ?_
    have hcommutes := hd.commutes_of_mem_expand hm
    rw [any_compatible_comm hcommutes fun m' hm' => hf.of_mem_expand hm']
    rfl

/-- **Compatibility is symmetric but for `mixed`, `array` and `iterable`**, and each of these three
has a direction: a declaration of it takes something that it is not possible for. -/
theorem compatible_symmetric :
    (∀ a b : Ty, Undirected a → Undirected b → compatible a b = compatible b a) ∧
    ∀ k : Atom, isDirected k = true →
      ∃ t, Undirected t ∧ compatible t (atom k) = true ∧ compatible (atom k) t = false := by
  refine ⟨?_, ?_⟩
  · intro a b ha hb
    exact ha.commutes b hb
  · intro k hk
    refine ⟨array (atom .string) 1, .array 1 (.atom (by decide)), ?_⟩
    rcases isDirected_iff.1 hk with rfl | rfl | rfl
    all_goals simp [compatible, arrayFitsAtom]

/-- Arrays of `callable|self` and of `?Closure`: it is the closures that both have, whichever of the
two is documented.  With `iterable` it would matter. -/
theorem compatible_symmetric_of_closures :
    (compatible (array (union [atom .callable, atom .self]) 2)
        (array (optional (named "Closure".toList)) 2) = true ∧
      compatible (array (optional (named "Closure".toList)) 2)
        (array (union [atom .callable, atom .self]) 2) = true) ∧
    ∃ t, Undirected t ∧ compatible t (atom .iterable) = true ∧
      compatible (atom .iterable) t = false := by
  have hcallable : Undirected (array (union [atom .callable, atom .self]) 2) := by
    refine .array 2 (.union ?_)
    simpa using ⟨.atom (by decide), .atom (by decide)⟩
  have hclosure : Undirected (array (optional (named "Closure".toList)) 2) :=
    .array 2 (.optional (.named _))
  have h : compatible (array (union [atom .callable, atom .self]) 2)
      (array (optional (named "Closure".toList)) 2) = true := by
    have hmeets : compatible (atom .callable) (named "Closure".toList) = true := by
      simp only [compatible]
      decide
    have hoverlap := overlap_of_mem (a := union [atom .callable, atom .self])
      (b := optional (named "Closure".toList)) (by simp [expand]) (by simp [expand]) hmeets
    rw [compatible_array, hoverlap]
    rfl
  obtain ⟨hsymmetric, hdirected⟩ := compatible_symmetric
  exact ⟨⟨h, (hsymmetric _ _ hcallable hclosure).symm.trans h⟩, hdirected .iterable rfl⟩

end Ty

end HintCheck
