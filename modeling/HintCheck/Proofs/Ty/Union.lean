/-
**The algebra of unions.**

A union is built by flattening its members and leaving out every type that has an equal in front
of it.  Because equality is transitive, it does not matter at which depth the repetitions are left
out: a union may be built from unions, in any grouping.

Main results:

* `HintCheck.Ty.of_mem_flatten` — what holds of the alternatives that a type brings into a union;
  `HintCheck.Ty.isMember_of_mem_flatten` — they can be its members;
* `HintCheck.Ty.exists_same_of_mem_dedup`, `HintCheck.Ty.pairwise_dedup` — nothing is lost but
  repetitions, and none is left;
* `HintCheck.Ty.dedup_append_dedup` — repetitions may be left out of a part first;
* `HintCheck.Ty.flatten_unionOf`, `HintCheck.Ty.unionOf_append` — **a union of unions is the union
  of all members**;
* `HintCheck.Ty.unionOf_of_normal` — a normal union is built as it is;
* `HintCheck.Ty.arrayOf_arrayOf` — the levels of arrays add up.
-/

import HintCheck.Proofs.Ty.Equality

set_option relaxedAutoImplicit false
set_option autoImplicit false

namespace HintCheck

namespace Ty

/-! ### Flattening -/

theorem isDefined_of_isMember {t : Ty} (h : IsMember t) : t.isDefined = true := by
  cases t <;> first | rfl | exact absurd h (by simp [IsMember])

theorem flatten_of_isMember {t : Ty} (h : IsMember t) : flatten t = [t] := by
  cases t <;> first | rfl | exact absurd h (by simp [IsMember])

theorem flattenAll_of_isMember {ts : List Ty} (h : ∀ t ∈ ts, IsMember t) : flattenAll ts = ts := by
  induction ts with
  | nil => rfl
  | cons t ts ih =>
      rw [flattenAll, flatten_of_isMember (h t (by simp)), ih fun u hu => h u (by simp [hu])]
      rfl

theorem mem_flattenAll_iff {ts : List Ty} {m : Ty} :
    m ∈ flattenAll ts ↔ ∃ t ∈ ts, m ∈ flatten t := by
  rw [flattenAll_eq, List.mem_flatMap]

/-- What types pass on to their members, and give to the members of a union, holds of every
alternative. -/
theorem of_mem_flatten {P Q : Ty → Prop} (hunion : ∀ ms, P (union ms) → ∀ m ∈ ms, P m)
    (hoptional : ∀ t, P (optional t) → P t) (hnull : Q (atom .null))
    (hmember : ∀ m, IsMember m → P m → Q m) {t m : Ty} (h : P t) (hm : m ∈ flatten t) : Q m := by
  -- a type that is neither a union nor optional brings itself only
  have hself : ∀ t, IsMember t → P t → m ∈ flatten t → Q m := by
    intro t ht h hm
    rw [flatten_of_isMember ht] at hm
    rw [List.mem_singleton.1 hm]
    exact hmember t ht h
  induction t using induct with
  | union ms ih =>
      rw [flatten] at hm
      obtain ⟨t, ht, hm⟩ := mem_flattenAll_iff.1 hm
      exact ih t ht (hunion ms h t ht) hm
  | optional t ih =>
      rw [flatten] at hm
      rcases List.mem_append.1 hm with hm | hm
      · exact ih (hoptional t h) hm
      · rw [List.mem_singleton.1 hm]
        exact hnull
  | undefined => simp [flatten] at hm
  | atom a => exact hself (atom a) trivial h hm
  | named n => exact hself (named n) trivial h hm
  | array e d => exact hself (array e d) trivial h hm
  | generic n ps => exact hself (generic n ps) trivial h hm

/-- Flattening leaves only types that can be members of a union. -/
theorem isMember_of_mem_flatten {t m : Ty} (h : m ∈ flatten t) : IsMember m :=
  of_mem_flatten (P := fun _ => True) (fun _ _ _ _ => trivial) (fun _ _ => trivial) trivial
    (fun _ hm _ => hm) trivial h

theorem isMember_of_mem_flattenAll {ts : List Ty} {m : Ty} (h : m ∈ flattenAll ts) :
    IsMember m := by
  obtain ⟨t, _, hm⟩ := mem_flattenAll_iff.1 h
  exact isMember_of_mem_flatten hm

/-! ### Leaving out repetitions -/

theorem insertNew_of_same {kept : List Ty} {k t : Ty} (hk : k ∈ kept) (h : same k t = true) :
    insertNew kept t = kept := by
  rw [insertNew, if_pos (List.any_eq_true.2 ⟨k, hk, h⟩)]

theorem insertNew_of_forall {kept : List Ty} {t : Ty} (h : ∀ k ∈ kept, same k t = false) :
    insertNew kept t = kept ++ [t] := by
  rw [insertNew, if_neg (by simpa using h)]

/-- What adding a type can do. -/
theorem insertNew_cases (kept : List Ty) (t : Ty) :
    (∃ k ∈ kept, same k t = true ∧ insertNew kept t = kept) ∨
      ((∀ k ∈ kept, same k t = false) ∧ insertNew kept t = kept ++ [t]) := by
  by_cases h : ∃ k ∈ kept, same k t = true
  · obtain ⟨k, hk, hs⟩ := h
    exact Or.inl ⟨k, hk, hs, insertNew_of_same hk hs⟩
  · have h : ∀ k ∈ kept, same k t = false := by
      intro k hk
      cases hs : same k t with
      | false => rfl
      | true => exact absurd ⟨k, hk, hs⟩ h
    exact Or.inr ⟨h, insertNew_of_forall h⟩

/-- What is kept stays in front. -/
theorem prefix_foldl_insertNew (kept ts : List Ty) : kept <+: ts.foldl insertNew kept := by
  induction ts generalizing kept with
  | nil => exact List.prefix_refl _
  | cons t ts ih =>
      refine List.IsPrefix.trans ?_ (ih (insertNew kept t))
      rcases insertNew_cases kept t with ⟨k, _, _, h⟩ | ⟨_, h⟩
      · exact ⟨[], by rw [h, List.append_nil]⟩
      · exact ⟨[t], h.symm⟩

theorem mem_of_mem_foldl_insertNew {kept ts : List Ty} {t : Ty}
    (h : t ∈ ts.foldl insertNew kept) : t ∈ kept ∨ t ∈ ts := by
  induction ts generalizing kept with
  | nil => exact Or.inl h
  | cons u ts ih =>
      rcases ih h with h | h
      · rcases insertNew_cases kept u with ⟨k, _, _, hu⟩ | ⟨_, hu⟩
        · rw [hu] at h
          exact Or.inl h
        · rw [hu] at h
          rcases List.mem_append.1 h with h | h
          · exact Or.inl h
          · exact Or.inr (by simp [List.mem_singleton.1 h])
      · exact Or.inr (List.mem_cons_of_mem _ h)

/-- Every type that is added has an equal among those that are kept. -/
theorem exists_same_of_mem_foldl_insertNew {kept ts : List Ty} {t : Ty} (h : t ∈ ts) :
    ∃ k ∈ ts.foldl insertNew kept, same k t = true := by
  induction ts generalizing kept with
  | nil => simp at h
  | cons u ts ih =>
      rcases List.mem_cons.1 h with rfl | h
      · have hprefix := prefix_foldl_insertNew (insertNew kept t) ts
        rcases insertNew_cases kept t with ⟨k, hk, hs, hi⟩ | ⟨_, hi⟩
        · exact ⟨k, hprefix.subset (by rw [hi]; exact hk), hs⟩
        · exact ⟨t, hprefix.subset (by rw [hi]; simp), same_refl t⟩
      · exact ih h

theorem mem_of_mem_dedup {ts : List Ty} {t : Ty} (h : t ∈ dedup ts) : t ∈ ts := by
  rcases mem_of_mem_foldl_insertNew h with h | h
  · simp at h
  · exact h

/-- Nothing is lost but repetitions. -/
theorem exists_same_of_mem_dedup {ts : List Ty} {t : Ty} (h : t ∈ ts) :
    ∃ k ∈ dedup ts, same k t = true :=
  exists_same_of_mem_foldl_insertNew h

/-- Types that all have an equal among those that are kept add nothing. -/
theorem foldl_insertNew_of_forall {kept ts : List Ty}
    (h : ∀ t ∈ ts, ∃ k ∈ kept, same k t = true) : ts.foldl insertNew kept = kept := by
  induction ts with
  | nil => rfl
  | cons t ts ih =>
      obtain ⟨k, hk, hs⟩ := h t (by simp)
      rw [List.foldl_cons, insertNew_of_same hk hs]
      exact ih fun u hu => h u (by simp [hu])

/-- Adding one after the other is adding what remains of both. -/
theorem foldl_insertNew_foldl (kept first second : List Ty) :
    (second.foldl insertNew first).foldl insertNew kept =
      second.foldl insertNew (first.foldl insertNew kept) := by
  induction second generalizing first with
  | nil => rfl
  | cons t second ih =>
      have hstep : (insertNew first t).foldl insertNew kept =
          insertNew (first.foldl insertNew kept) t := by
        rcases insertNew_cases first t with ⟨k, hk, hs, hi⟩ | ⟨_, hi⟩
        · obtain ⟨k', hk', hs'⟩ : ∃ k' ∈ first.foldl insertNew kept, same k' k = true :=
            exists_same_of_mem_foldl_insertNew hk
          rw [hi, insertNew_of_same hk' (same_trans hs' hs)]
        · rw [hi, List.foldl_append]
          rfl
      rw [List.foldl_cons, List.foldl_cons, ih, hstep]

/-- Repetitions may be left out of a part first. -/
theorem dedup_append_dedup (ts us vs : List Ty) :
    dedup (ts ++ dedup us ++ vs) = dedup (ts ++ us ++ vs) := by
  simp only [dedup, List.foldl_append]
  rw [foldl_insertNew_foldl, List.foldl_nil]

theorem foldl_insertNew_of_pairwise {kept ts : List Ty}
    (h : (kept ++ ts).Pairwise fun a b => same a b = false) :
    ts.foldl insertNew kept = kept ++ ts := by
  induction ts generalizing kept with
  | nil => simp
  | cons t ts ih =>
      have hnew : ∀ k ∈ kept, same k t = false := by
        intro k hk
        exact (List.pairwise_append.1 h).2.2 k hk t (by simp)
      rw [List.foldl_cons, insertNew_of_forall hnew, ih (by simpa using h)]
      simp

/-- Types that are pairwise different are all kept. -/
theorem dedup_of_pairwise {ts : List Ty} (h : ts.Pairwise fun a b => same a b = false) :
    dedup ts = ts :=
  foldl_insertNew_of_pairwise h

/-- Behind types that are pairwise different, others are added one by one. -/
theorem dedup_append_of_pairwise {ts : List Ty} (h : ts.Pairwise fun a b => same a b = false)
    (us : List Ty) : dedup (ts ++ us) = us.foldl insertNew ts := by
  rw [dedup, List.foldl_append, ← dedup, dedup_of_pairwise h]

/-- Types that are pairwise different stay in front of all that is added behind them. -/
theorem prefix_dedup_append {ts : List Ty} (h : ts.Pairwise fun a b => same a b = false)
    (us : List Ty) : ts <+: dedup (ts ++ us) := by
  rw [dedup_append_of_pairwise h]
  exact prefix_foldl_insertNew ts us

/-- Adding a type to types that are pairwise different keeps them so. -/
theorem pairwise_insertNew {kept : List Ty} (h : kept.Pairwise fun a b => same a b = false)
    (t : Ty) : (insertNew kept t).Pairwise fun a b => same a b = false := by
  rcases insertNew_cases kept t with ⟨_, _, _, hi⟩ | ⟨hnew, hi⟩
  · rwa [hi]
  · rw [hi]
    refine List.pairwise_append.2 ⟨h, List.pairwise_singleton _ t, ?_⟩
    simpa using hnew

theorem pairwise_foldl_insertNew {kept : List Ty} (h : kept.Pairwise fun a b => same a b = false)
    (ts : List Ty) : (ts.foldl insertNew kept).Pairwise fun a b => same a b = false := by
  induction ts generalizing kept with
  | nil => exact h
  | cons t ts ih => exact ih (pairwise_insertNew h t)

/-- Without repetitions, types are pairwise different. -/
theorem pairwise_dedup (ts : List Ty) : (dedup ts).Pairwise fun a b => same a b = false :=
  pairwise_foldl_insertNew List.Pairwise.nil ts

/-! ### Unions -/

theorem flatten_collapse {ts : List Ty} (h : ∀ t ∈ ts, IsMember t) :
    flatten (collapse ts) = ts := by
  unfold collapse
  split
  · rfl
  · exact flatten_of_isMember (h _ (by simp))
  · rw [flatten, flattenAll_of_isMember h]

/-- The alternatives of a union are those of its members, without repetitions. -/
theorem flatten_unionOf (ts : List Ty) : flatten (unionOf ts) = dedup (flattenAll ts) :=
  flatten_collapse fun _ ht => isMember_of_mem_flattenAll (mem_of_mem_dedup ht)

/-- **A union of unions is the union of all members.** -/
theorem unionOf_append (ts us vs : List Ty) :
    unionOf (ts ++ unionOf us :: vs) = unionOf (ts ++ us ++ vs) := by
  have h := dedup_append_dedup (flattenAll ts) (flattenAll us) (flattenAll vs)
  rw [← flatten_unionOf us] at h
  simp only [unionOf, flattenAll_append, flattenAll] at h ⊢
  rw [← List.append_assoc, h]

theorem isDefined_unionOf {ts : List Ty} {t m : Ty} (ht : t ∈ ts) (hm : m ∈ flatten t) :
    (unionOf ts).isDefined = true := by
  cases hu : unionOf ts with
  | undefined =>
      obtain ⟨k, hk, _⟩ := exists_same_of_mem_dedup (mem_flattenAll_iff.2 ⟨t, ht, hm⟩)
      rw [← flatten_unionOf, hu] at hk
      simp [flatten] at hk
  | _ => rfl

/-- Members that are pairwise different are the members of their union. -/
theorem unionOf_of_pairwise {ts : List Ty} (hmember : ∀ t ∈ ts, IsMember t)
    (hdiff : ts.Pairwise fun a b => same a b = false) : unionOf ts = collapse ts := by
  rw [unionOf, flattenAll_of_isMember hmember, dedup_of_pairwise hdiff]

theorem collapse_of_two_le {ts : List Ty} (h : 2 ≤ ts.length) : collapse ts = union ts := by
  match ts with
  | [] => simp at h
  | [t] => simp at h
  | t :: t' :: ts => rfl

/-- A normal union is built as it is. -/
theorem unionOf_of_normal {ms : List Ty} (h : Normal (union ms)) : unionOf ms = union ms := by
  obtain ⟨hlen, hmember, hdiff, _⟩ := h.members
  rw [unionOf_of_pairwise hmember hdiff, collapse_of_two_le hlen]

/-! ### Arrays -/

/-- The levels of arrays add up. -/
theorem arrayOf_arrayOf (e : Ty) (m n : Nat) : arrayOf (arrayOf e m) n = arrayOf e (m + n) := by
  rcases Nat.eq_zero_or_pos m with rfl | hm
  · simp
  · rcases Nat.eq_zero_or_pos n with rfl | hn
    · simp
    · have hm' : m ≠ 0 := by omega
      have hn' : n ≠ 0 := by omega
      cases e <;> simp [arrayOf, arrayBy, hm', hn', Nat.add_assoc]

/-- One level or more makes an array. -/
theorem exists_arrayOf_eq {d : Nat} (hd : 1 ≤ d) (e : Ty) :
    ∃ e' d', arrayOf e d = array e' d' := by
  have hd : d ≠ 0 := by omega
  cases e <;> simp [arrayOf, arrayBy, hd]

theorem arrayOf_of_isElement {e : Ty} {d : Nat} (hd : 1 ≤ d) (he : IsElement e) :
    arrayOf e d = array e d := by
  have hd : d ≠ 0 := by omega
  cases e <;> simp_all [arrayOf, arrayBy, IsElement]

end Ty

end HintCheck
