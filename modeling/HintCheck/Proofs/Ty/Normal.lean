/-
**Every type is in normal form.**

Types are built by a union, by adding null and by adding array levels, and the reader puts the types
that texts spell together from these.  All three keep the normal form, so that whatever is read is
in normal form, however malformed the text.  There is one exception, which no text is long enough
for: array levels that are counted in words may add up to none.

Main results:

* `HintCheck.Ty.alternatives_dedup` — what flattening and leaving out repetitions give can be the
  members of one union;
* `HintCheck.Ty.normalOrAbsent_unionOf`, `HintCheck.Ty.normalOrAbsent_nullable`,
  `HintCheck.Ty.normal_arrayOf` — the three ways to build a type keep the normal form;
* `HintCheck.Ty.normal_arrayOfWord_iff` — in words, array levels keep it unless none are left;
* `HintCheck.Ty.normalOrAbsent_read` — what is read is in normal form;
* `HintCheck.Ty.types_are_normal` — **types are always in normal form.**
-/

import HintCheck.Proofs.Ty.Compatible
import HintCheck.Proofs.Ty.Depth

set_option relaxedAutoImplicit false
set_option autoImplicit false

namespace HintCheck

namespace Ty

open Text

theorem normalOrAbsent_undefined : NormalOrAbsent undefined := nofun

/-- Nothing else is asked of a type that was written. -/
theorem NormalOrAbsent.normal {t : Ty} (h : NormalOrAbsent t) (hne : t ≠ undefined) : Normal t := by
  refine h ?_
  cases t <;> first | rfl | exact absurd rfl hne

/-! ### Unions -/

/-- The alternatives that a type brings into a union are in normal form. -/
theorem normal_of_mem_flatten {t m : Ty} (h : NormalOrAbsent t) (hm : m ∈ flatten t) :
    Normal m := by
  refine of_mem_flatten ?_ ?_ trivial ?_ h hm
  · intro ms h m hm
    exact ((h rfl).members.2.2.2 m hm).normalOrAbsent
  · intro t h
    exact (h rfl).2.normalOrAbsent
  · intro m hm h
    exact h (isDefined_of_isMember hm)

/-- The alternatives of types in normal form, without repetitions, can be the members of one
union. -/
theorem alternatives_dedup {ts : List Ty} (h : ∀ t ∈ ts, NormalOrAbsent t) :
    Alternatives (dedup (flattenAll ts)) where
  isMember _ hm := isMember_of_mem_flattenAll (mem_of_mem_dedup hm)
  normal m hm := by
    obtain ⟨t, ht, hm⟩ := mem_flattenAll_iff.1 (mem_of_mem_dedup hm)
    exact normal_of_mem_flatten (h t ht) hm
  different := pairwise_dedup _

theorem normalOrAbsent_collapse {ts : List Ty} (h : Alternatives ts) :
    NormalOrAbsent (collapse ts) := by
  match ts with
  | [] => exact normalOrAbsent_undefined
  | [t] => exact (h.normal t (by simp)).normalOrAbsent
  | t :: t' :: ts =>
      refine Normal.normalOrAbsent ?_
      change Normal (union (t :: t' :: ts))
      rw [Normal, normalAll_iff]
      exact ⟨by simp, h.isMember, h.different, h.normal⟩

/-- A union of types in normal form is in normal form. -/
theorem normalOrAbsent_unionOf {ts : List Ty} (h : ∀ t ∈ ts, NormalOrAbsent t) :
    NormalOrAbsent (unionOf ts) :=
  normalOrAbsent_collapse (alternatives_dedup h)

/-! ### Null and arrays -/

/-- The short form exists for the types that can stand behind a question mark. -/
theorem nullable_of_isOptionable {t : Ty} (h : IsOptionable t) : nullable t = optional t := by
  cases t with
  | atom a => cases a <;> first | rfl | exact absurd h (by simp [IsOptionable])
  | named n => rfl
  | array e d => rfl
  | generic n ps => rfl
  | _ => exact absurd h (by simp [IsOptionable])

/-- A type in normal form together with null is in normal form. -/
theorem normalOrAbsent_nullable {t : Ty} (h : NormalOrAbsent t) : NormalOrAbsent (nullable t) := by
  have hoption : IsOptionable t → NormalOrAbsent (nullable t) := by
    intro ht
    rw [nullable_of_isOptionable ht]
    refine Normal.normalOrAbsent ⟨ht, h ?_⟩
    exact isDefined_of_isMember (isMember_of_isOptionable ht)
  cases t with
  | union ms =>
      rw [nullable]
      split
      · exact h
      · exact normalOrAbsent_unionOf (by simpa using ⟨h, fun _ => trivial⟩)
  | atom a => cases a <;> first | exact h | exact hoption trivial
  | optional t => exact h
  | undefined => exact h
  | _ => exact hoption trivial

/-- A union that is built is no short form. -/
theorem unionOf_ne_optional (ts : List Ty) (t : Ty) : unionOf ts ≠ optional t := by
  have hmember : ∀ m ∈ dedup (flattenAll ts), IsMember m := fun m hm =>
    isMember_of_mem_flattenAll (mem_of_mem_dedup hm)
  rw [unionOf]
  cases hd : dedup (flattenAll ts) with
  | nil => simp [collapse]
  | cons m ms =>
      cases ms with
      | nil =>
          rintro (rfl : m = optional t)
          simpa [IsMember] using hmember (optional t) (by simp [hd])
      | cons m' ms => simp [collapse]

/-- Only what can stand behind a question mark is put there. -/
theorem isOptionable_of_nullable {t : Ty} (h : nullable t = optional t) : IsOptionable t := by
  cases t with
  | atom a => cases a <;> trivial
  | union ms =>
      rw [nullable] at h
      split at h
      · cases h
      · exact absurd h (unionOf_ne_optional _ _)
  | optional u =>
      have hsize := congrArg sizeOf h
      simp [nullable] at hsize
  | undefined => simp [nullable] at h
  | _ => trivial

/-- Arrays of a type in normal form are in normal form, to every depth. -/
theorem normal_arrayOf {e : Ty} (h : Normal e) (d : Nat) : Normal (arrayOf e d) := by
  rcases Nat.eq_zero_or_pos d with rfl | hd
  · exact h
  · have helement : IsElement e → Normal (arrayOf e d) := by
      intro he
      rw [arrayOf_of_isElement hd he]
      exact ⟨hd, he, h⟩
    cases e with
    | array inner inside =>
        obtain ⟨hinside, helement, hn⟩ := h
        have harray : arrayOf (array inner inside) d = array inner (inside + d) := by
          simp [arrayOf, arrayBy, Nat.ne_of_gt hd]
        rw [harray]
        exact ⟨by omega, helement, hn⟩
    | undefined => exact absurd h (by simp [Normal])
    | _ => exact helement trivial

/-- In words, arrays of a type in normal form are in normal form unless the levels add up to the
number of words, of which none is left. -/
theorem normal_arrayOfWord_iff {e : Ty} (h : Normal e) (hword : levels e < UInt64.size)
    (d : UInt64) : Normal (arrayOfWord e d) ↔ levels e + d.toNat ≠ UInt64.size := by
  have hd : d.toNat < UInt64.size := d.toNat_lt_size
  by_cases hfits : levels e + d.toNat < UInt64.size
  · rw [arrayOfWord_eq hfits]
    exact iff_of_true (normal_arrayOf h d.toNat) (Nat.ne_of_lt hfits)
  · cases e with
    | array inner inside =>
        obtain ⟨hinside, helement, hinner⟩ := h
        simp only [levels] at hword hfits ⊢
        -- less than two words is lost, and so at most one
        have hrest : (inside + d.toNat) % UInt64.size = inside + d.toNat - UInt64.size := by
          rw [Nat.mod_eq_sub_mod (by omega), Nat.mod_eq_of_lt (by omega)]
        rw [arrayOfWord_array inner inside (by omega), hrest, Normal]
        constructor
        · rintro ⟨hlevel, -⟩
          omega
        · intro hne
          exact ⟨by omega, helement, hinner⟩
    | _ => exact absurd (by simpa [levels] using hd) hfits

/-! ### The parts of the reader -/

/-- The types that keywords stand for are in normal form, unions included. -/
theorem normal_of_keyword {name : Text} {t : Ty} (h : keyword name = some t) : Normal t := by
  have hall : ∀ row ∈ keywords, Normal row.2 := by
    simp [keywords, Normal, NormalAll, IsMember, same]
  obtain ⟨row, hrow, rfl⟩ := Option.map_eq_some_iff.1 h
  exact hall row (List.mem_of_find?_eq_some hrow)

/-- The type of the values of a container is never absent. -/
theorem normal_valueType {params : List (Text × Ty)} (h : ∀ p ∈ params, NormalOrAbsent p.2) :
    Normal (valueType params) := by
  unfold valueType
  split
  · next raw t hlast =>
    have ht := h _ (List.mem_of_getLast? hlast)
    split
    · trivial
    · next hkept =>
      simp only [Bool.or_eq_true, Bool.not_eq_true', not_or, Bool.not_eq_false] at hkept
      exact ht hkept.2
  · trivial

theorem normal_ofParams (name : Text) {params : List (Text × Ty)}
    (h : ∀ p ∈ params, NormalOrAbsent p.2) : Normal (ofParams name params) := by
  have hgeneric : Normal (generic name (params.map (·.2))) := by
    rw [Normal, normalParams_iff]
    simpa using fun t raw hp => h (raw, t) hp
  unfold ofParams
  split
  · exact normal_arrayOf (normal_valueType h) 1
  · split
    · exact hgeneric
    · next hkey => exact normal_of_keyword hkey
    · exact hgeneric

theorem normal_ofShape (base name : Text) : Normal (ofShape base name) := by
  unfold ofShape
  split
  · exact normal_arrayOf (e := atom .mixed) trivial 1
  · split
    · trivial
    · trivial

theorem normal_ofCallable (name : Text) : Normal (ofCallable name) := by
  unfold ofCallable
  split
  · trivial
  · trivial

theorem normal_keyword_getD (base : Text) : Normal ((keyword base).getD (named base)) := by
  cases h : keyword base with
  | none => trivial
  | some t => exact normal_of_keyword h

/-! ### The reader -/

/-- Every step of the reader keeps the normal form. -/
theorem keptByReading_normalOrAbsent (text : Text) :
    KeptByReading text fun _ t => NormalOrAbsent t where
  widen _ h := h
  absent _ := normalOrAbsent_undefined
  builtin _ a := Normal.normalOrAbsent (t := atom a) trivial
  word {part} _ _ := (normal_keyword_getD part).normalOrAbsent
  params {_ name _ _} _ h := (normal_ofParams name fun p hp => (h p hp).2).normalOrAbsent
  unclosed {part _ _} _ _ := Normal.normalOrAbsent (t := named part) trivial
  shape {part name _} _ _ := (normal_ofShape part name).normalOrAbsent
  callable {_ name _} _ _ := (normal_ofCallable name).normalOrAbsent
  unionOf h := normalOrAbsent_unionOf h
  nullable h := normalOrAbsent_nullable h
  arrayOf {_ _ _ d} _ hdefined h := (normal_arrayOf (h.normal hdefined) d).normalOrAbsent

/-- What is read is in normal form. -/
theorem normalOrAbsent_read (cs : Text) : NormalOrAbsent (read cs) :=
  (keptByReading_normalOrAbsent cs).read

/-- **Types are always in normal form**: those that are read off any text, with no more array levels
than the text has characters, and those that are built from types in normal form.  Only where array
levels are counted in words, and add up to the number of words, no level is left. -/
theorem types_are_normal (cs : Text) (ts : List Ty) (t e : Ty) (d : UInt64) :
    (NormalOrAbsent (read cs) ∧ LevelsWithin cs.length (read cs)) ∧
    ((∀ t ∈ ts, NormalOrAbsent t) → NormalOrAbsent (unionOf ts)) ∧
    (NormalOrAbsent t → NormalOrAbsent (nullable t)) ∧
    (Normal e → levels e < UInt64.size →
      (Normal (arrayOfWord e d) ↔ levels e + d.toNat ≠ UInt64.size)) := by
  refine ⟨⟨normalOrAbsent_read cs, levelsWithin_read cs⟩, ?_, ?_, ?_⟩
  · intro h
    exact normalOrAbsent_unionOf h
  · intro h
    exact normalOrAbsent_nullable h
  · intro h hword
    exact normal_arrayOfWord_iff h hword d

/-- A malformed text; a union with a short form, an absent type and a repetition; null beside a
union; levels on levels. -/
theorem types_are_normal_of_mixture :
    NormalOrAbsent (read "?(array-key|int)[]|?".toList) ∧
    (unionOf [optional (atom .int), undefined, union [atom .int, atom .string]] =
        union [atom .int, atom .null, atom .string] ∧
      Normal (union [atom .int, atom .null, atom .string])) ∧
    (nullable (union [atom .int, atom .string]) = union [atom .int, atom .string, atom .null] ∧
      Normal (union [atom .int, atom .string, atom .null])) ∧
    (arrayOfWord (array (atom .int) 1) 2 = array (atom .int) 3 ∧
      Normal (array (atom .int) 3)) := by
  obtain ⟨⟨hread, -⟩, hunion, hnullable, harray⟩ := types_are_normal "?(array-key|int)[]|?".toList
    [optional (atom .int), undefined, union [atom .int, atom .string]]
    (union [atom .int, atom .string]) (array (atom .int) 1) 2
  have hint : Normal (optional (atom .int)) := ⟨trivial, trivial⟩
  have hpair : Normal (union [atom .int, atom .string]) := by
    simp [Normal, NormalAll, IsMember, same]
  refine ⟨hread, ⟨rfl, ?_⟩, ⟨rfl, ?_⟩, ⟨rfl, ?_⟩⟩
  · refine hunion ?_ rfl
    simpa using ⟨hint.normalOrAbsent, normalOrAbsent_undefined, hpair.normalOrAbsent⟩
  · exact hnullable hpair.normalOrAbsent rfl
  · exact (harray ⟨Nat.le_refl 1, trivial, trivial⟩ (by decide)).2 (by decide)

/-- Three depths, each of which fits into a word, add up to an array that has no level any more. -/
theorem not_normal_of_lost_levels :
    arrayOfWord (arrayOfWord (atom .int) 9223372036854775807) 9223372036854775807 =
        array (atom .int) 18446744073709551614 ∧
      Normal (array (atom .int) 18446744073709551614) ∧
      arrayOfWord (array (atom .int) 18446744073709551614) 2 = array (atom .int) 0 ∧
      ¬Normal (array (atom .int) 0) := by
  refine ⟨rfl, ⟨by decide, trivial, trivial⟩, rfl, ?_⟩
  intro h
  exact absurd h.1 (by decide)

end Ty

end HintCheck
