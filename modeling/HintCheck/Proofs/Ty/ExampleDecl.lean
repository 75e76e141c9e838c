/-
**Declared types from documented ones.**

Where a declaration has no type, its documentation may tell which one it could be given.  Every
documented alternative calls for one declared type, an array for `array` and a class with parameters
for the class, and null calls for none.  A type is suggested when all of them call for the same one;
then it is a type that can be declared, and the documentation fits it.

Main definitions:

* `HintCheck.Ty.IsSingle`, `HintCheck.Ty.IsDeclarable` — the types that can be declared;
* `HintCheck.Ty.CallsFor` — a documented type all of whose alternatives call for one declared type.

Main results:

* `HintCheck.Ty.exampleDecl?_eq_expand` — only the alternatives of a documented type decide, so that
  the spelling of null does not;
* `HintCheck.Ty.isSingle_of_declMember?`, `HintCheck.Ty.compatible_of_declMember?` — what one
  alternative calls for can be declared, and takes the alternative;
* `HintCheck.Ty.exampleDecl?_eq_some_iff` — which type is suggested, and when;
* `HintCheck.Ty.exampleDecl?_fits` — **a suggested type can be declared, and the documentation fits
  it.**
-/

import HintCheck.Ty.Suggest
import HintCheck.Proofs.Ty.Alike
import HintCheck.Proofs.Ty.Normal

set_option relaxedAutoImplicit false
set_option autoImplicit false

namespace HintCheck

namespace Ty

/-! ### Types that can be declared -/

/-- The built-in types that a declaration can consist of. -/
def declarableAtoms : List Atom :=
  [.int, .float, .string, .bool, .self, .callable, .object, .iterable, .array]

/-- A type of one alternative that can be declared anywhere. -/
inductive IsSingle : Ty → Prop where
  | atom {a : Atom} (ha : a ∈ declarableAtoms) : IsSingle (.atom a)
  | named (n : Text) : IsSingle (.named n)

/-- A type that can be declared: of one alternative, perhaps together with null, or, for results
only, `void`. -/
inductive IsDeclarable (isReturn : Bool) : Ty → Prop where
  | single {t : Ty} (ht : IsSingle t) : IsDeclarable isReturn t
  | optional {t : Ty} (ht : IsSingle t) : IsDeclarable isReturn (.optional t)
  | void (h : isReturn = true) : IsDeclarable isReturn (.atom .void)

/-- Whether a type is null. -/
def isNull : Ty → Bool
  | atom .null => true
  | _ => false

/-- All alternatives of a documented type but null call for one declared type, and there are such
alternatives. -/
structure CallsFor (isReturn : Bool) (doc t : Ty) : Prop where
  each : ∀ m ∈ expand doc, isNull m = false → declMember? isReturn m = some t
  some : ∃ m ∈ expand doc, isNull m = false

/-- The type that is suggested when the alternatives call for some types, with or without null. -/
def declOf (called : Ty) (withNull : Bool) : Option Ty :=
  match called, withNull with
  | undefined, _ => none
  | union _, _ => none
  | atom .void, true => none
  | t, true => some (nullable t)
  | t, false => some t

variable {isReturn : Bool}

/-! ### What one alternative calls for -/

theorem declMember?_atom (a : Atom) : declMember? isReturn (atom a) =
    if a ∈ declarableAtoms then some (atom a)
    else if a = .void ∧ isReturn = true then some (atom .void)
    else none := by
  cases a with
  | void => cases isReturn <;> rfl
  | _ => rfl

/-- What an alternative can call for. -/
theorem declMember?_cases {m t : Ty} (h : declMember? isReturn m = some t) :
    (m = t ∧ IsSingle t) ∨ (m = atom .void ∧ t = atom .void ∧ isReturn = true) ∨
      (∃ e d, m = array e d ∧ t = atom .array) ∨ ∃ n ps, m = generic n ps ∧ t = named n := by
  cases m with
  | atom a =>
      rw [declMember?_atom] at h
      split at h
      · next ha =>
        cases h
        exact Or.inl ⟨rfl, .atom ha⟩
      · split at h
        · next hvoid =>
          cases h
          exact Or.inr (Or.inl ⟨by rw [hvoid.1], rfl, hvoid.2⟩)
        · cases h
  | named n =>
      cases h
      exact Or.inl ⟨rfl, .named n⟩
  | array e d =>
      cases h
      exact Or.inr (Or.inr (Or.inl ⟨e, d, rfl, rfl⟩))
  | generic n ps =>
      cases h
      exact Or.inr (Or.inr (Or.inr ⟨n, ps, rfl, rfl⟩))
  | union ms => cases h
  | optional u => cases h
  | undefined => cases h

/-- What is called for can be declared. -/
theorem isSingle_of_declMember? {m t : Ty} (h : declMember? isReturn m = some t) :
    IsSingle t ∨ (t = atom .void ∧ isReturn = true) := by
  rcases declMember?_cases h with ⟨_, ht⟩ | ⟨_, ht, hreturn⟩ | ⟨e, d, _, rfl⟩ | ⟨n, ps, _, rfl⟩
  · exact Or.inl ht
  · exact Or.inr ⟨ht, hreturn⟩
  · exact Or.inl (.atom (by decide))
  · exact Or.inl (.named n)

/-- What is called for takes the alternative. -/
theorem compatible_of_declMember? {m t : Ty} (h : declMember? isReturn m = some t) :
    compatible m t = true := by
  rcases declMember?_cases h with ⟨rfl, ht⟩ | ⟨rfl, rfl, _⟩ | ⟨e, d, rfl, rfl⟩ | ⟨n, ps, rfl, rfl⟩
  · cases ht with
    | atom => simp [compatible, atomFits_self]
    | named n => simp [compatible, sameClass_self]
  · simp [compatible, atomFits_self]
  · simp [compatible, arrayFitsAtom]
  · simp [compatible, sameClass_self]

/-- What is called for has no parts, so that only it is equal to it. -/
theorem eq_of_same_called {m t u : Ty} (h : declMember? isReturn m = some u)
    (hs : same t u = true) : u = t := by
  have hflat : (∃ a, u = atom a) ∨ ∃ n, u = named n := by
    rcases isSingle_of_declMember? h with hu | ⟨rfl, _⟩
    · cases hu with
      | @atom a => exact Or.inl ⟨a, rfl⟩
      | named n => exact Or.inr ⟨n, rfl⟩
    · exact Or.inl ⟨_, rfl⟩
  rcases hflat with ⟨a, rfl⟩ | ⟨n, rfl⟩
  all_goals
    cases t <;> simp_all [same]

theorem isMember_of_declMember? {m t : Ty} (h : declMember? isReturn m = some t) : IsMember t := by
  rcases isSingle_of_declMember? h with ht | ⟨rfl, _⟩
  · cases ht <;> trivial
  · trivial

/-! ### What all alternatives call for -/

theorem exampleDecl?_eq (doc : Ty) : exampleDecl? doc isReturn =
    (doc.members.mapM (declMembers? isReturn)).bind fun found =>
      declOf (unionOf found.flatten) (doc.members.any isNullMember) := by
  unfold exampleDecl?
  cases doc.members.mapM (declMembers? isReturn) with
  | none => rfl
  | some found => rfl

theorem declMembers?_of_isMember {m : Ty} (h : IsMember m) : declMembers? isReturn m =
    if isNull m then some [] else (declMember? isReturn m).map ([·]) := by
  cases m with
  | atom a => cases a <;> rfl
  | optional t => exact h.elim
  | _ => rfl

theorem any_isNullMember {ms : List Ty} (h : ∀ m ∈ ms, IsMember m) :
    ms.any isNullMember = ms.any isNull := by
  have hsame : ∀ m, IsMember m → isNullMember m = isNull m := by
    intro m hm
    cases m with
    | atom a => cases a <;> rfl
    | optional t => exact hm.elim
    | _ => rfl
  induction ms with
  | nil => rfl
  | cons m ms ih =>
      rw [List.any_cons, List.any_cons, hsame m (h m (by simp)),
        ih fun k hk => h k (List.mem_cons_of_mem m hk)]

@[simp] theorem isNull_null : isNull (atom .null) = true := rfl

theorem isNull_of_isOptionable {t : Ty} (h : IsOptionable t) : isNull t = false := by
  cases t with
  | atom a => cases a <;> first | rfl | exact h.elim
  | _ => rfl

/-- Null calls for nothing, so that it can be left out in front. -/
theorem map_flatten_mapM_declMembers? {ms : List Ty} (h : ∀ m ∈ ms, IsMember m) :
    (ms.mapM (declMembers? isReturn)).map List.flatten =
      (ms.filter fun m => !isNull m).mapM (declMember? isReturn) := by
  induction ms with
  | nil => rfl
  | cons m ms ih =>
      have ih := ih fun k hk => h k (List.mem_cons_of_mem m hk)
      rw [List.mapM_cons, declMembers?_of_isMember (h m (by simp)), List.filter_cons]
      cases hnull : isNull m with
      | true =>
          rw [Bool.not_true, if_neg Bool.false_ne_true, ← ih]
          cases ms.mapM (declMembers? isReturn) <;> rfl
      | false =>
          rw [Bool.not_false, if_pos rfl, List.mapM_cons, ← ih]
          cases declMember? isReturn m with
          | none => rfl
          | some t => cases ms.mapM (declMembers? isReturn) <;> rfl

/-- **Only the alternatives decide which type is suggested**, so that the spelling of null does
not. -/
theorem exampleDecl?_eq_expand {doc : Ty} (hd : Normal doc) : exampleDecl? doc isReturn =
    (((expand doc).filter fun m => !isNull m).mapM (declMember? isReturn)).bind fun ts =>
      declOf (unionOf ts) ((expand doc).any isNull) := by
  -- where there is no `?T`, the members are the alternatives
  have hmembers : ∀ ms, doc.members = ms → expand doc = ms → (∀ m ∈ ms, IsMember m) →
      exampleDecl? doc isReturn =
        (((expand doc).filter fun m => !isNull m).mapM (declMember? isReturn)).bind fun ts =>
          declOf (unionOf ts) ((expand doc).any isNull) := by
    intro ms hms hexpand hmember
    have hany := any_isNullMember hmember
    rw [exampleDecl?_eq, hms, hexpand, hany, ← map_flatten_mapM_declMembers? hmember,
      Option.bind_map]
    rfl
  cases doc with
  | union ms => exact hmembers ms rfl rfl hd.members.2.1
  | optional u =>
      have hexpand : expand (optional u) = [atom .null, u] := by
        rw [expand, expand_of_isMember (isMember_of_isOptionable hd.1)]
      have hfilter : [atom .null, u].filter (fun m => !isNull m) = [u] := by
        simp [isNull_of_isOptionable hd.1]
      rw [exampleDecl?_eq, hexpand, hfilter]
      cases hcalled : declMember? isReturn u with
      | none => simp [members, declMembers?, hcalled]
      | some t => simp [members, declMembers?, hcalled, isNullMember]
  | undefined => exact absurd hd (by simp [Normal])
  | _ => exact hmembers [_] rfl rfl (List.forall_mem_singleton.2 trivial)

/-- Of the types that can be members null alone admits null. -/
theorem admitsNull_of_isMember {m : Ty} (h : IsMember m) : m.admitsNull = isNull m := by
  cases m with
  | atom a => cases a <;> rfl
  | union ms => exact h.elim
  | optional t => exact h.elim
  | _ => rfl

theorem admitsNull_union {ms : List Ty} (h : ∀ m ∈ ms, IsMember m) :
    (union ms).admitsNull = ms.any isNull := by
  have hunion : (Kind.atom .null == Kind.union) = false := by decide
  simp only [admitsNull, contains, hunion, anyContains_eq, Bool.false_or]
  rw [Bool.eq_iff_iff, List.any_eq_true, List.any_eq_true]
  refine exists_congr fun m => and_congr_right fun hm => ?_
  rw [← admitsNull_of_isMember (h m hm), admitsNull]

theorem admitsNull_eq {doc : Ty} (hd : Normal doc) : doc.admitsNull = (expand doc).any isNull := by
  cases doc with
  | union ms => exact admitsNull_union hd.members.2.1
  | optional u => simp [admitsNull, contains, expand]
  | undefined => rfl
  | _ =>
      refine (admitsNull_of_isMember ?_).trans ?_
      · trivial
      · simp [expand]

/-! ### When something is suggested -/

/-- Where all alternatives are replaced, each has its replacement. -/
theorem matched_of_mapM {α β : Type} {f : α → Option β} {as : List α} {bs : List β}
    (h : as.mapM f = some bs) : Matched (fun a b => f a = some b) as bs := by
  induction as generalizing bs with
  | nil =>
      cases h
      exact ⟨by simp, by simp⟩
  | cons a as ih =>
      rw [List.mapM_cons] at h
      obtain ⟨b, hb, h⟩ := Option.bind_eq_some_iff.1 h
      obtain ⟨cs, hcs, h⟩ := Option.bind_eq_some_iff.1 h
      cases h
      exact (ih hcs).cons hb

theorem mapM_eq_replicate {α β : Type} {f : α → Option β} {as : List α} {b : β}
    (h : ∀ a ∈ as, f a = some b) : as.mapM f = some (List.replicate as.length b) := by
  induction as with
  | nil => rfl
  | cons a as ih =>
      rw [List.mapM_cons, h a (by simp), ih fun c hc => h c (List.mem_cons_of_mem a hc)]
      rfl

/-- Of one member only, however often it is given, the union is that member. -/
theorem unionOf_eq_of_forall {ts : List Ty} {t : Ty} (hmember : IsMember t) (hne : ts ≠ [])
    (h : ∀ u ∈ ts, u = t) : unionOf ts = t := by
  cases ts with
  | nil => exact absurd rfl hne
  | cons u us =>
      obtain rfl := h u (by simp)
      have hrest : us.foldl insertNew [u] = [u] := by
        refine foldl_insertNew_of_forall fun v hv => ⟨u, by simp, ?_⟩
        rw [h v (List.mem_cons_of_mem u hv)]
        exact same_refl u
      have hmembers : ∀ v ∈ u :: us, IsMember v := by
        intro v hv
        rw [h v hv]
        exact hmember
      rw [unionOf, flattenAll_of_isMember hmembers, dedup, List.foldl_cons]
      exact congrArg collapse hrest

/-- A union that is no union has equal members. -/
theorem same_of_mem_unionOf {ts : List Ty} {t u : Ty} (hmember : ∀ v ∈ ts, IsMember v)
    (h : unionOf ts = t) (ht : IsMember t) (hu : u ∈ ts) : same t u = true := by
  obtain ⟨k, hk, hs⟩ := exists_same_of_mem_dedup hu
  have hexpand := (expand_unionOf (List.ne_nil_of_mem hu) hmember).1
  rw [h, expand_of_isMember ht] at hexpand
  rw [← hexpand, List.mem_singleton] at hk
  rwa [hk] at hs

/-- What is suggested for a type that is called for. -/
theorem declOf_eq_some_iff {m t F : Ty} {withNull : Bool}
    (h : declMember? isReturn m = some t) : declOf t withNull = some F ↔
      (withNull = false ∧ F = t) ∨ (withNull = true ∧ t ≠ atom .void ∧ F = optional t) := by
  rcases isSingle_of_declMember? h with ht | ⟨rfl, _⟩
  · cases ht with
    | @atom a ha =>
        have hne : a ≠ .void ∧ nullable (atom a) = optional (atom a) := by
          simp only [declarableAtoms, List.mem_cons, List.not_mem_nil, or_false] at ha
          rcases ha with rfl | rfl | rfl | rfl | rfl | rfl | rfl | rfl | rfl <;>
            exact ⟨by decide, rfl⟩
        cases withNull <;> simp [declOf, hne, eq_comm]
    | named n =>
        cases withNull <;> simp [declOf, nullable, eq_comm]
  · cases withNull <;> simp [declOf, eq_comm]

theorem isMember_of_declOf {ts : List Ty} {F : Ty} {withNull : Bool}
    (h : declOf (unionOf ts) withNull = some F) : IsMember (unionOf ts) := by
  cases hunion : unionOf ts with
  | union ms =>
      rw [hunion] at h
      cases h
  | optional t => exact absurd hunion (unionOf_ne_optional ts t)
  | undefined =>
      rw [hunion] at h
      cases h
  | _ => trivial

/-- **Which type is suggested, and when**: the one that all alternatives but null call for, with
null where it is admitted; but `void` is not suggested together with null. -/
theorem exampleDecl?_eq_some_iff {doc F : Ty} (hd : Normal doc) :
    exampleDecl? doc isReturn = some F ↔ ∃ t, CallsFor isReturn doc t ∧
      ((doc.admitsNull = false ∧ F = t) ∨
        (doc.admitsNull = true ∧ t ≠ atom .void ∧ F = optional t)) := by
  have hmem : ∀ m, m ∈ (expand doc).filter (fun m => !isNull m) ↔
      m ∈ expand doc ∧ isNull m = false := by
    simp [List.mem_filter]
  rw [exampleDecl?_eq_expand hd, admitsNull_eq hd]
  constructor
  · intro h
    obtain ⟨ts, hts, hF⟩ := Option.bind_eq_some_iff.1 h
    have hmatched := matched_of_mapM hts
    have hcalled : ∀ u ∈ ts, ∃ m, declMember? isReturn m = some u := fun u hu =>
      (hmatched.back u hu).imp fun _ h => h.2
    have hmember : ∀ u ∈ ts, IsMember u := fun u hu =>
      (hcalled u hu).elim fun _ h => isMember_of_declMember? h
    have ht := isMember_of_declOf hF
    have hone : ∀ u ∈ ts, u = unionOf ts := by
      intro u hu
      obtain ⟨m, hm⟩ := hcalled u hu
      exact eq_of_same_called hm (same_of_mem_unionOf hmember rfl ht hu)
    obtain ⟨u, hu⟩ : ∃ u, u ∈ ts := by
      refine List.exists_mem_of_ne_nil ts ?_
      rintro rfl
      exact ht
    obtain ⟨m, hm, hmu⟩ := hmatched.back u hu
    rw [hone u hu] at hmu
    refine ⟨unionOf ts, ⟨?_, m, (hmem m).1 hm⟩, (declOf_eq_some_iff hmu).1 hF⟩
    intro k hk hnull
    obtain ⟨v, hv, hkv⟩ := hmatched.forth k ((hmem k).2 ⟨hk, hnull⟩)
    rwa [hone v hv] at hkv
  · rintro ⟨t, hcalls, hF⟩
    obtain ⟨m, hm, hnull⟩ := hcalls.some
    have hmt := hcalls.each m hm hnull
    have hmapM := mapM_eq_replicate fun k hk =>
      hcalls.each k ((hmem k).1 hk).1 ((hmem k).1 hk).2
    have hunion : unionOf (List.replicate
        ((expand doc).filter fun m => !isNull m).length t) = t := by
      refine unionOf_eq_of_forall (isMember_of_declMember? hmt) ?_ fun u hu =>
        (List.mem_replicate.1 hu).2
      rw [Ne, List.replicate_eq_nil_iff, List.length_eq_zero_iff]
      exact List.ne_nil_of_mem ((hmem m).2 ⟨hm, hnull⟩)
    rw [hmapM, Option.bind_some, hunion]
    exact (declOf_eq_some_iff hmt).2 hF

/-! ### What is suggested -/

theorem eq_null_of_isNull {m : Ty} (h : isNull m = true) : m = atom .null := by
  unfold isNull at h
  split at h
  · rfl
  · cases h

/-- The documentation fits what has the type that is called for as its alternative, and null where
null is documented. -/
theorem CallsFor.isEmpty_compare {doc t F : Ty} (h : CallsFor isReturn doc t)
    (hF : ∀ m, m ∈ expand F ↔ m = t ∨ (m = atom .null ∧ (expand doc).any isNull = true)) :
    (compare doc F).isEmpty = true := by
  obtain ⟨k, hk, hknull⟩ := h.some
  have hself : compatible (atom .null) (atom .null) = true := by simp [compatible, atomFits_self]
  refine Ty.isEmpty_compare ?_ ?_
  · intro m hm
    cases hnull : isNull m with
    | true =>
        obtain rfl := eq_null_of_isNull hnull
        exact ⟨atom .null, (hF _).2 (Or.inr ⟨rfl, List.any_eq_true.2 ⟨_, hm, hnull⟩⟩), hself⟩
    | false => exact ⟨t, (hF t).2 (Or.inl rfl), compatible_of_declMember? (h.each m hm hnull)⟩
  · intro m' hm'
    rcases (hF m').1 hm' with rfl | ⟨rfl, hany⟩
    · exact ⟨k, hk, compatible_of_declMember? (h.each k hk hknull)⟩
    · obtain ⟨n, hn, hnull⟩ := List.any_eq_true.1 hany
      obtain rfl := eq_null_of_isNull hnull
      exact ⟨atom .null, hn, hself⟩

/-- **A suggested type can be declared, and the documentation fits it.**  It admits null exactly
when the documentation does. -/
theorem exampleDecl?_fits {doc F : Ty} (hd : NormalOrAbsent doc)
    (h : exampleDecl? doc isReturn = some F) :
    (compare doc F).isEmpty = true ∧ IsDeclarable isReturn F ∧
      ((∃ t, F = optional t) ↔ doc.admitsNull = true) := by
  have hne : doc ≠ undefined := by
    rintro rfl
    cases h
  have hd := hd.normal hne
  obtain ⟨t, hcalls, hF⟩ := (exampleDecl?_eq_some_iff hd).1 h
  obtain ⟨k, hk, hknull⟩ := hcalls.some
  have hcalled := hcalls.each k hk hknull
  have hexpand := expand_of_isMember (isMember_of_declMember? hcalled)
  rcases hF with ⟨hnull, rfl⟩ | ⟨hnull, hvoid, rfl⟩
  · rw [admitsNull_eq hd] at hnull ⊢
    refine ⟨hcalls.isEmpty_compare (by simp [hexpand, hnull]), ?_, ?_⟩
    · rcases isSingle_of_declMember? hcalled with hF | ⟨rfl, hreturn⟩
      · exact .single hF
      · exact .void hreturn
    · rw [hnull]
      refine ⟨?_, nofun⟩
      rintro ⟨u, rfl⟩
      exact (isMember_of_declMember? hcalled).elim
  · rw [admitsNull_eq hd] at hnull ⊢
    refine ⟨hcalls.isEmpty_compare (by simp [expand, hexpand, hnull, or_comm]), ?_,
      fun _ => hnull, fun _ => ⟨t, rfl⟩⟩
    rcases isSingle_of_declMember? hcalled with ht | ⟨rfl, _⟩
    · exact .optional ht
    · exact absurd rfl hvoid

/-- Documented as `A[]|null|array`: both arrays call for the same declaration, `?array`. -/
theorem exampleDecl?_fits_of_arrays :
    exampleDecl? (union [array (named "A".toList) 1, atom .null, atom .array]) false =
      some (optional (atom .array)) ∧
    (compare (union [array (named "A".toList) 1, atom .null, atom .array])
      (optional (atom .array))).isEmpty = true ∧
    IsDeclarable false (optional (atom .array)) ∧
    (union [array (named "A".toList) 1, atom .null, atom .array]).admitsNull = true := by
  have hd : Normal (union [array (named "A".toList) 1, atom .null, atom .array]) := by
    simp [Normal, NormalAll, IsMember, IsElement, same]
  have hsuggested : exampleDecl? (union [array (named "A".toList) 1, atom .null, atom .array])
      false = some (optional (atom .array)) := rfl
  obtain ⟨hfits, hdeclarable, hnull⟩ := exampleDecl?_fits hd.normalOrAbsent hsuggested
  exact ⟨hsuggested, hfits, hdeclarable, hnull.1 ⟨_, rfl⟩⟩

end Ty

end HintCheck
