/-
**The advice to a getter.**

A getter of a property that may be null is advised to say so in its comment: where the comment gives
no type, the type of the property is shown without null, and null behind it.  What is left out is
the null among the members of a union.  The short form `?T` is one member, so its null stays and is
named again behind it.

Main results:

* `HintCheck.Routine.withoutNull_optional`, `HintCheck.Routine.withoutNull_eq_collapse` — what is
  left of the short form, and of any other type;
* `HintCheck.Routine.admitsNull_withoutNull_iff` — null is left just in the short form;
* `HintCheck.Routine.mem_expand_unionOf_withoutNull` — with null behind it, the type has the
  alternatives that it had;
* `HintCheck.Routine.getter_advice` — **what a getter is advised.**
-/

import HintCheck.Rule.Method
import HintCheck.Proofs.Ty.ExampleDecl

set_option relaxedAutoImplicit false
set_option autoImplicit false

namespace HintCheck

namespace Ty

theorem isNull_iff {t : Ty} : isNull t = true ↔ t = atom .null := by
  cases t with
  | atom a => cases a <;> simp [isNull]
  | _ => simp [isNull]

/-- Null is equal to nothing else. -/
theorem same_null (t : Ty) : same t (atom .null) = isNull t := by
  cases t with
  | atom a => cases a <;> rfl
  | _ => rfl

/-- A union admits null just where null is one of the alternatives that it is made of. -/
theorem admitsNull_collapse {ms : List Ty} (h : ∀ m ∈ ms, IsMember m) :
    (collapse ms).admitsNull = ms.any isNull := by
  match ms with
  | [] => rfl
  | [m] => simpa [collapse] using admitsNull_of_isMember (h m (by simp))
  | m :: m' :: ms => exact admitsNull_union h

end Ty

namespace Routine

open Ty

variable {t u : Ty}

/-! ### Leaving out null -/

theorem withoutNull_isNull (t : Ty) : withoutNull.isNull t = isNull t := by
  cases t with
  | atom a => cases a <;> rfl
  | _ => rfl

/-- The short form is one member, which is no null, and stays. -/
theorem withoutNull_optional (h : Normal (optional u)) :
    withoutNull (optional u) = union [u, atom .null] := by
  have hflat : flattenAll [optional u] = flattenAll [u, atom .null] := by
    simp [flattenAll, flatten]
  have hunion : withoutNull (optional u) = unionOf [u, atom .null] := by
    change unionOf [optional u] = _
    rw [unionOf, hflat, ← unionOf]
  rw [hunion, unionOf_null h.1]

/-- Of any other type all alternatives but null are left. -/
theorem withoutNull_eq_collapse (h : Normal t) (hshort : ∀ u, t ≠ optional u) :
    withoutNull t = collapse ((expand t).filter (!isNull ·)) := by
  have hmembers : t.members = expand t := by
    cases t with
    | optional u => exact absurd rfl (hshort u)
    | _ => rfl
  have hleft := (alternatives_expand h).filter (!isNull ·)
  simp only [withoutNull, hmembers, withoutNull_isNull]
  exact unionOf_of_pairwise hleft.isMember hleft.different

/-- Null is left just in the short form. -/
theorem admitsNull_withoutNull_iff (h : Normal t) :
    (withoutNull t).admitsNull = true ↔ ∃ u, t = optional u := by
  by_cases hshort : ∃ u, t = optional u
  · obtain ⟨u, rfl⟩ := hshort
    rw [withoutNull_optional h]
    simp [admitsNull, contains, anyContains, kind]
  · have hleft := (alternatives_expand h).filter (!isNull ·)
    rw [withoutNull_eq_collapse h (not_exists.1 hshort), admitsNull_collapse hleft.isMember]
    simp [hshort]

/-- With null behind it, a type that admits null has the alternatives that it had. -/
theorem mem_expand_unionOf_withoutNull (h : Normal t) (hnull : t.admitsNull = true) (k : Ty) :
    k ∈ expand (unionOf [withoutNull t, atom .null]) ↔ k ∈ expand t := by
  have hflat : flattenAll [withoutNull t, atom .null] =
      flatten (withoutNull t) ++ [atom .null] := by
    simp [flattenAll, flatten]
  rw [(expand_unionOf_flattenAll (by simp [hflat])).1, hflat]
  by_cases hshort : ∃ u, t = optional u
  · -- null, the second alternative of what is left, is not added once more
    obtain ⟨u, rfl⟩ := hshort
    have hmembers : ∀ m ∈ [u, atom .null], IsMember m := by
      simpa using ⟨isMember_of_isOptionable h.1, trivial⟩
    have hdifferent : [u, atom .null].Pairwise fun a b => same a b = false := by
      simpa using same_of_isOptionable_null h.1
    have hnull : insertNew [u, atom .null] (atom .null) = [u, atom .null] :=
      insertNew_of_same (k := atom .null) (by simp) rfl
    rw [withoutNull_optional h, flatten, flattenAll_of_isMember hmembers,
      dedup_append_of_pairwise hdifferent, List.foldl_cons, List.foldl_nil, hnull, expand,
      expand_of_isMember (isMember_of_isOptionable h.1)]
    simp [or_comm]
  · have hleft := (alternatives_expand h).filter (!isNull ·)
    have hdifferent : ((expand t).filter (!isNull ·) ++ [atom .null]).Pairwise
        fun a b => same a b = false := by
      refine List.pairwise_append.2 ⟨hleft.different, List.pairwise_singleton _ _, ?_⟩
      simp [same_null]
    rw [withoutNull_eq_collapse h (not_exists.1 hshort), flatten_collapse hleft.isMember,
      dedup_of_pairwise hdifferent]
    rw [admitsNull_eq h] at hnull
    obtain ⟨n, hn, hisNull⟩ := List.any_eq_true.1 hnull
    rw [isNull_iff.1 hisNull] at hn
    by_cases hk : k = atom .null
    · simp [hk, hn]
    · have hother : isNull k = false := Bool.eq_false_iff.2 fun hnull => hk (isNull_iff.1 hnull)
      simp [hk, hother]

/-! ### The advice -/

/-- The getters whose property may be null: methods of ordinary classes that return a property with
a documented type that admits null. -/
theorem nullableGetter?_eq_some_iff {r : Routine} {property : Text} {t : Ty} :
    r.nullableGetter? = some (property, t) ↔
      ∃ c, r.owner = some c ∧ c.kind = .ordinary ∧ r.getter = some property ∧
        propertyDoc? c property = some t ∧ t.admitsNull = true := by
  simp only [nullableGetter?, Option.bind_eq_bind, Option.bind_eq_some_iff]
  constructor
  · rintro ⟨c, hc, p, hp, d, hd, h⟩
    split at h
    · next hguard =>
      cases h
      exact ⟨c, hc, hguard.1, hp, hd, hguard.2⟩
    · cases h
  · rintro ⟨c, hc, hkind, hp, hd, hnull⟩
    exact ⟨c, hc, property, hp, t, hd, if_pos ⟨hkind, hnull⟩⟩

/-- A result whose tag has no type is not documented as null. -/
theorem docContains_of_untyped {s : Subject} (h : s.definedDoc? = none) :
    s.docContains (.atom .null) = false := by
  rw [Subject.definedDoc?] at h
  rw [Subject.docContains]
  cases hdoc : s.doc? with
  | none => rfl
  | some t =>
      rw [hdoc] at h
      cases t with
      | undefined => rfl
      | _ => cases h

theorem documented_resultSubject (r : Routine) : r.resultSubject.documented = r.doc.isSome := by
  unfold resultSubject
  split <;> rfl

/-- **What a getter is advised.**  Where the comment gives no type of the result, the type of the
property is shown without null, and null behind it.  That names the alternatives of the property,
and null once, except for the short form: of `?T` it is `T|null|null`. -/
theorem getter_advice {r : Routine} {m : MethodSettings} {property : Text} {t : Ty}
    (hgetter : r.nullableGetter? = some (property, t)) (ht : Normal t)
    (hreport : m.reportGetterDoc = true) (hdoc : r.doc.isSome = true)
    (huntyped : r.resultSubject.definedDoc? = none) :
    (getterInspection m r.resultSubject property t).documentation =
        [.getterDocWithoutNull property (withoutNull t)] ∧
      (r.resultSubject.docLine,
        (Remark.getterDocWithoutNull property (withoutNull t)).message r.resultSubject.name) ∈
          r.getterFindings m ∧
      (∀ k, k ∈ expand (unionOf [withoutNull t, atom .null]) ↔ k ∈ expand t) ∧
      ((withoutNull t).admitsNull = true ↔ ∃ u, t = optional u) ∧
      ∀ u, t = optional u → (withoutNull t).docText = u.docText ++ "|null".toList := by
  obtain ⟨_, _, _, _, _, hnull⟩ := nullableGetter?_eq_some_iff.1 hgetter
  have hfound : (getterInspection m r.resultSubject property t).documentation =
      [.getterDocWithoutNull property (withoutNull t)] := by
    simp [getterInspection, Check.when, hreport, hdoc, huntyped, documented_resultSubject,
      docContains_of_untyped huntyped]
  refine ⟨hfound, ?_, mem_expand_unionOf_withoutNull ht hnull, admitsNull_withoutNull_iff ht, ?_⟩
  · rw [getterFindings, hgetter]
    refine List.mem_append_right _ ?_
    rw [hfound]
    exact List.mem_singleton.2 rfl
  · rintro u rfl
    rw [withoutNull_optional ht]
    rfl

/-- A class with a property of a documented type, and its getter with a comment that has no
tags. -/
def getterOf (t : Ty) : Routine :=
  let signature : Signature :=
    { line := 10, name := "getValue".toList, result := .undefined, resultLine := 10, params := [] }
  let method : MethodDecl :=
    { line := 10, signature, getter := some "value".toList
      doc := some { description := [("Gets the value.".toList, 8)], tags := [] } }
  let value : PropertyDecl :=
    { line := 5, name := "value".toList, ty := .undefined, value := none
      doc := some { description := [], tags := [.var ⟨4, t⟩ none none] } }
  ofMethod
    { line := 2, kind := .ordinary, name := "Holder".toList, fullName := "Holder".toList
      scope := none, doc := none, parent := none, interfaces := [], methods := [method]
      properties := [value], constants := [] } method

/-- A union with null in front. -/
def nullOrItem : Ty := union [atom .null, atom .int, named "Item".toList]

/-- Of a union the advice names null once. -/
theorem getter_advice_of_union :
    (getterOf nullOrItem).nullableGetter? = some ("value".toList, nullOrItem) ∧
      (10, ("Returned property $value is nullable, add null return doc type, " ++
        "e.g. int|Item|null").toList) ∈ (getterOf nullOrItem).getterFindings {} ∧
      (withoutNull nullOrItem).admitsNull = false := by
  have hgetter : (getterOf nullOrItem).nullableGetter? = some ("value".toList, nullOrItem) := rfl
  have hnormal : Normal nullOrItem := by
    simp [nullOrItem, Ty.Normal, NormalAll, IsMember, same]
  obtain ⟨-, hfound, -, hnull, -⟩ := getter_advice (m := {}) hgetter hnormal rfl rfl rfl
  have hmessage : (Remark.getterDocWithoutNull "value".toList (withoutNull nullOrItem)).message
      (getterOf nullOrItem).resultSubject.name =
        ("Returned property $value is nullable, add null return doc type, " ++
          "e.g. int|Item|null").toList := by
    decide +kernel
  refine ⟨hgetter, hmessage ▸ hfound, Bool.eq_false_iff.2 fun h => ?_⟩
  obtain ⟨u, hu⟩ := hnull.1 h
  cases hu

/-- Of the short form it names null twice. -/
theorem getter_advice_repeats_null :
    Normal (optional (atom .int)) ∧
      (getterOf (optional (atom .int))).getterFindings {} =
        [(10, ("Returned property $value is nullable, add null return doc type, " ++
          "e.g. int|null|null").toList)] ∧
      (withoutNull (optional (atom .int))).admitsNull = true :=
  ⟨⟨trivial, trivial⟩, by decide +kernel, by decide +kernel⟩

end Routine

end HintCheck
