/-
**Equality of types.**

Two unions are equal when they have as many members and every member of the first is in the
second.  As a test this looks one-sided; where the members of each union are pairwise different, as
in normal form, it is an equivalence, because an inclusion of as many members is onto.

Main definitions:

* `HintCheck.Ty.NormalOrAbsent` — the types in normal form, and the absent type;
* `HintCheck.Ty.DistinctMembers` — the types whose unions repeat nothing, at any depth.

Main results:

* `HintCheck.Ty.induct` — induction over types, with a hypothesis for every member of a list;
* `HintCheck.Ty.same_refl`, `HintCheck.Ty.same_trans` — equality is reflexive and transitive on all
  types;
* `HintCheck.Ty.same_symm` — **equality is symmetric** where unions repeat nothing;
* `HintCheck.Ty.NormalOrAbsent.distinctMembers` — which is so in normal form.
-/

import HintCheck.Ty.Build

set_option relaxedAutoImplicit false
set_option autoImplicit false

namespace HintCheck

namespace Ty

/-! ### Induction -/

/-- Induction over types.  For the lists of parameters and members the hypothesis holds for each
type of the list. -/
@[elab_as_elim]
theorem induct {P : Ty → Prop} (atom : ∀ a, P (.atom a)) (named : ∀ n, P (.named n))
    (array : ∀ e d, P e → P (.array e d))
    (generic : ∀ n ps, (∀ p ∈ ps, P p) → P (.generic n ps))
    (union : ∀ ms, (∀ m ∈ ms, P m) → P (.union ms)) (optional : ∀ t, P t → P (.optional t))
    (undefined : P .undefined) : ∀ t, P t
  | .atom a => atom a
  | .named n => named n
  | .array e d => array e d (induct atom named array generic union optional undefined e)
  | .generic n ps =>
      generic n ps fun p _ => induct atom named array generic union optional undefined p
  | .union ms => union ms fun m _ => induct atom named array generic union optional undefined m
  | .optional t => optional t (induct atom named array generic union optional undefined t)
  | .undefined => undefined
termination_by t => sizeOf t
decreasing_by
  · simp
    omega
  · have := List.sizeOf_lt_of_mem ‹_ ∈ ps›
    simp
    omega
  · have := List.sizeOf_lt_of_mem ‹_ ∈ ms›
    simp
    omega
  · simp

/-! ### Types in normal form -/

/-- A type in normal form, or none. -/
def NormalOrAbsent (t : Ty) : Prop := t.isDefined = true → Normal t

theorem normalAll_iff (ts : List Ty) : NormalAll ts ↔ ∀ t ∈ ts, Normal t := by
  induction ts with
  | nil => simp [NormalAll]
  | cons t ts ih => simp [NormalAll, ih]

theorem normalParams_iff (ts : List Ty) : NormalParams ts ↔ ∀ t ∈ ts, NormalOrAbsent t := by
  induction ts with
  | nil => simp [NormalParams]
  | cons t ts ih => simp [NormalParams, NormalOrAbsent, ih]

theorem Normal.isDefined {t : Ty} (h : Normal t) : t.isDefined = true := by
  cases t <;> first | rfl | exact absurd h (by simp [Normal])

theorem Normal.normalOrAbsent {t : Ty} (h : Normal t) : NormalOrAbsent t := fun _ => h

/-- The members of a normal union. -/
theorem Normal.members {ms : List Ty} (h : Normal (union ms)) :
    2 ≤ ms.length ∧ (∀ m ∈ ms, IsMember m) ∧ ms.Pairwise (fun a b => same a b = false) ∧
      ∀ m ∈ ms, Normal m := by
  simp only [Normal, normalAll_iff] at h
  exact h

theorem Normal.params {n : Text} {ps : List Ty} (h : Normal (generic n ps)) :
    ∀ p ∈ ps, NormalOrAbsent p := by
  simpa only [Normal, normalParams_iff] using h

/-- At every depth, the members of a union are pairwise different. -/
inductive DistinctMembers : Ty → Prop where
  | atom (a : Atom) : DistinctMembers (.atom a)
  | named (n : Text) : DistinctMembers (.named n)
  | array {e : Ty} (d : Nat) (he : DistinctMembers e) : DistinctMembers (.array e d)
  | generic (n : Text) {ps : List Ty} (hps : ∀ p ∈ ps, DistinctMembers p) :
      DistinctMembers (.generic n ps)
  | union {ms : List Ty} (hdiff : ms.Pairwise fun a b => same a b = false)
      (hms : ∀ m ∈ ms, DistinctMembers m) : DistinctMembers (.union ms)
  | optional {t : Ty} (ht : DistinctMembers t) : DistinctMembers (.optional t)
  | undefined : DistinctMembers .undefined

/-- In normal form no union repeats a member. -/
theorem NormalOrAbsent.distinctMembers {t : Ty} (h : NormalOrAbsent t) : DistinctMembers t := by
  induction t using induct with
  | atom a => exact .atom a
  | named n => exact .named n
  | array e d ih => exact .array d (ih (h rfl).2.2.normalOrAbsent)
  | generic n ps ih => exact .generic n fun p hp => ih p hp ((h rfl).params p hp)
  | union ms ih =>
      obtain ⟨_, _, hdiff, hn⟩ := (h rfl).members
      exact .union hdiff fun m hm => ih m hm (hn m hm).normalOrAbsent
  | optional t ih => exact .optional (ih (h rfl).2.normalOrAbsent)
  | undefined => exact .undefined

/-! ### Reflexivity and transitivity -/

theorem same_generic (n n' : Text) (ps ps' : List Ty) :
    same (generic n ps) (generic n' ps') = (n == n' && sameEach ps ps') := rfl

theorem same_union (as bs : List Ty) :
    same (union as) (union bs) =
      (as.length == bs.length && as.all fun a => bs.any (same a)) := by
  rw [same, allIn_eq]

/-- Two unions are equal when they have as many members, and the first is included in the
second. -/
theorem same_union_iff {as bs : List Ty} :
    same (union as) (union bs) = true ↔
      as.length = bs.length ∧ ∀ a ∈ as, ∃ b ∈ bs, same a b = true := by
  simp [same_union, List.all_eq_true, List.any_eq_true]

theorem sameEach_refl {ts : List Ty} (h : ∀ t ∈ ts, same t t = true) : sameEach ts ts = true := by
  induction ts with
  | nil => rfl
  | cons t ts ih =>
      rw [sameEach, h t (by simp), ih fun u hu => h u (by simp [hu])]
      rfl

/-- Equality is reflexive. -/
theorem same_refl (t : Ty) : same t t = true := by
  induction t using induct with
  | atom a => simp [same]
  | named n => simp [same]
  | array e d ih => simp [same, ih]
  | generic n ps ih => simp [same_generic, sameEach_refl ih]
  | union ms ih => exact same_union_iff.2 ⟨rfl, fun m hm => ⟨m, hm, ih m hm⟩⟩
  | optional t ih => simpa [same] using ih
  | undefined => rfl

theorem sameEach_trans {as bs cs : List Ty}
    (h : ∀ a ∈ as, ∀ b c, same a b = true → same b c = true → same a c = true)
    (hab : sameEach as bs = true) (hbc : sameEach bs cs = true) : sameEach as cs = true := by
  induction as generalizing bs cs with
  | nil => cases bs <;> cases cs <;> simp_all [sameEach]
  | cons a as ih =>
      cases bs with
      | nil => simp [sameEach] at hab
      | cons b bs =>
          cases cs with
          | nil => simp [sameEach] at hbc
          | cons c cs =>
              simp only [sameEach, Bool.and_eq_true] at hab hbc ⊢
              exact ⟨h a (by simp) b c hab.1 hbc.1,
                ih (fun x hx => h x (by simp [hx])) hab.2 hbc.2⟩

/-- Equality is transitive. -/
theorem same_trans {a b c : Ty} (hab : same a b = true) (hbc : same b c = true) :
    same a c = true := by
  induction a using induct generalizing b c with
  | atom k =>
      cases b with
      | atom k' =>
          simp only [same, beq_iff_eq] at hab
          rwa [hab]
      | _ => simp [same] at hab
  | named n =>
      cases b with
      | named n' =>
          simp only [same, beq_iff_eq] at hab
          rwa [hab]
      | _ => simp [same] at hab
  | array e d ih =>
      cases b with
      | array e' d' =>
          cases c with
          | array e'' d'' =>
              simp only [same, Bool.and_eq_true, beq_iff_eq] at hab hbc ⊢
              exact ⟨hab.1.trans hbc.1, ih hab.2 hbc.2⟩
          | _ => simp [same] at hbc
      | _ => simp [same] at hab
  | generic n ps ih =>
      cases b with
      | generic n' ps' =>
          cases c with
          | generic n'' ps'' =>
              simp only [same_generic, Bool.and_eq_true, beq_iff_eq] at hab hbc ⊢
              exact ⟨hab.1.trans hbc.1,
                sameEach_trans (fun p hp b c hb hc => ih p hp hb hc) hab.2 hbc.2⟩
          | _ => simp [same] at hbc
      | _ => simp [same] at hab
  | union ms ih =>
      cases b with
      | union ms' =>
          cases c with
          | union ms'' =>
              obtain ⟨hlen, hin⟩ := same_union_iff.1 hab
              obtain ⟨hlen', hin'⟩ := same_union_iff.1 hbc
              refine same_union_iff.2 ⟨hlen.trans hlen', ?_⟩
              intro m hm
              obtain ⟨m', hm', hs⟩ := hin m hm
              obtain ⟨m'', hm'', hs'⟩ := hin' m' hm'
              exact ⟨m'', hm'', ih m hm hs hs'⟩
          | _ => simp [same] at hbc
      | _ => simp [same] at hab
  | optional t ih =>
      cases b with
      | optional t' =>
          cases c with
          | optional t'' => exact ih hab hbc
          | _ => simp [same] at hbc
      | _ => simp [same] at hab
  | undefined =>
      cases b with
      | undefined => exact hbc
      | _ => simp [same] at hab

/-! ### Symmetry -/

/-- An inclusion of a list in one that is no longer is onto, when no two elements of the first are
sent to one of the second. -/
theorem exists_of_inclusion {α β : Type} {r : α → β → Prop} {as : List α} {bs : List β}
    (hlen : as.length = bs.length) (hin : ∀ a ∈ as, ∃ b ∈ bs, r a b)
    (hone : as.Pairwise fun a a' => ∀ b ∈ bs, r a b → ¬r a' b) :
    ∀ b ∈ bs, ∃ a ∈ as, r a b := by
  induction as generalizing bs with
  | nil =>
      intro b hb
      rw [List.length_nil, eq_comm, List.length_eq_zero_iff] at hlen
      rw [hlen] at hb
      simp at hb
  | cons a as ih =>
      obtain ⟨b₀, hb₀, hr⟩ := hin a (by simp)
      obtain ⟨front, back, rfl⟩ := List.append_of_mem hb₀
      obtain ⟨hfirst, hone⟩ := List.pairwise_cons.1 hone
      -- what the other elements are sent to stands beside `b₀`
      have hrest : ∀ b ∈ front ++ back, ∃ a' ∈ as, r a' b := by
        refine ih ?_ ?_ ?_
        · simp at hlen ⊢
          omega
        · intro a' ha'
          obtain ⟨b, hb, hr'⟩ := hin a' (by simp [ha'])
          refine ⟨b, ?_, hr'⟩
          rcases List.mem_append.1 hb with hb | hb
          · exact List.mem_append_left _ hb
          · rcases List.mem_cons.1 hb with rfl | hb
            · exact absurd hr' (hfirst a' ha' b hb₀ hr)
            · exact List.mem_append_right _ hb
        · refine hone.imp ?_
          intro x y hxy b hb
          refine hxy b ?_
          rcases List.mem_append.1 hb with hb | hb <;> simp [hb]
      intro b hb
      rcases List.mem_append.1 hb with hb | hb
      · obtain ⟨a', ha', h⟩ := hrest b (List.mem_append_left _ hb)
        exact ⟨a', by simp [ha'], h⟩
      · rcases List.mem_cons.1 hb with rfl | hb
        · exact ⟨a, by simp, hr⟩
        · obtain ⟨a', ha', h⟩ := hrest b (List.mem_append_right _ hb)
          exact ⟨a', by simp [ha'], h⟩

theorem sameEach_symm {as bs : List Ty} (h : ∀ a ∈ as, ∀ b, same a b = true → same b a = true)
    (hab : sameEach as bs = true) : sameEach bs as = true := by
  induction as generalizing bs with
  | nil => cases bs <;> simp_all [sameEach]
  | cons a as ih =>
      cases bs with
      | nil => simp [sameEach] at hab
      | cons b bs =>
          simp only [sameEach, Bool.and_eq_true] at hab ⊢
          exact ⟨h a (by simp) b hab.1, ih (fun x hx => h x (by simp [hx])) hab.2⟩

/-- The inclusion in an equal union is onto, where equality is symmetric on the members of the
first one: two members with one equal would be equal to each other. -/
theorem exists_same_of_same_union {ms ms' : List Ty}
    (hdiff : ms.Pairwise fun a b => same a b = false)
    (hsymm : ∀ m ∈ ms, ∀ m', same m m' = true → same m' m = true)
    (h : same (union ms) (union ms') = true) : ∀ m' ∈ ms', ∃ m ∈ ms, same m m' = true := by
  obtain ⟨hlen, hin⟩ := same_union_iff.1 h
  refine exists_of_inclusion hlen hin (hdiff.imp_of_mem ?_)
  intro a a' _ ha' hne b _ hab hab'
  rw [same_trans hab (hsymm a' ha' b hab')] at hne
  cases hne

/-- **Equality is symmetric** where unions repeat nothing.  This is asked of the first type only. -/
theorem same_symm {a b : Ty} (ha : DistinctMembers a) (hab : same a b = true) :
    same b a = true := by
  induction ha generalizing b with
  | atom k =>
      cases b with
      | atom k' =>
          simp only [same, beq_iff_eq] at hab ⊢
          exact hab.symm
      | _ => simp [same] at hab
  | named n =>
      cases b with
      | named n' =>
          simp only [same, beq_iff_eq] at hab ⊢
          exact hab.symm
      | _ => simp [same] at hab
  | array d _ ih =>
      cases b with
      | array e' d' =>
          simp only [same, Bool.and_eq_true, beq_iff_eq] at hab ⊢
          exact ⟨hab.1.symm, ih hab.2⟩
      | _ => simp [same] at hab
  | generic n _ ih =>
      cases b with
      | generic n' ps' =>
          simp only [same_generic, Bool.and_eq_true, beq_iff_eq] at hab ⊢
          exact ⟨hab.1.symm, sameEach_symm (fun p hp q h => ih p hp h) hab.2⟩
      | _ => simp [same] at hab
  | @union ms hdiff _ ih =>
      cases b with
      | union ms' =>
          have hsymm : ∀ m ∈ ms, ∀ m', same m m' = true → same m' m = true :=
            fun m hm m' h => ih m hm h
          refine same_union_iff.2 ⟨(same_union_iff.1 hab).1.symm, ?_⟩
          intro b hb
          obtain ⟨a, ha, h⟩ := exists_same_of_same_union hdiff hsymm hab b hb
          exact ⟨a, ha, hsymm a ha b h⟩
      | _ => simp [same] at hab
  | optional _ ih =>
      cases b with
      | optional t' => exact ih hab
      | _ => simp [same] at hab
  | undefined =>
      cases b with
      | undefined => rfl
      | _ => simp [same] at hab

end Ty

end HintCheck
