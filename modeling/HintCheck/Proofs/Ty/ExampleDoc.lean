/-
**Documented types from declared ones.**

Where a tag has no type, the declaration tells which one it could have.  The suggestion is a text:
the alternatives of the declared type, spelled one by one between bars, with an array of a class in
the place of every plain `array`.  This module shows that nothing is lost on the way through the
text, so that the suggestion is read as a union of these alternatives and fits the declaration.

Main definitions:

* `HintCheck.Ty.specific` — an alternative, with an array of a class for a plain array;
* `HintCheck.Ty.suggestedDoc` — the union of these.

Main results:

* `HintCheck.Ty.exampleDoc?_eq` — the suggestion is spelled alternative by alternative;
* `HintCheck.Ty.read_exampleDoc?` — it is read as the suggested union;
* `HintCheck.Ty.expand_suggestedDoc` — the alternatives of this union;
* `HintCheck.Ty.suggestedDoc_fits` — it fits the declaration;
* `HintCheck.Ty.exampleDoc?_fits` — **a suggested spelling always fits.**
-/

import HintCheck.Ty.Suggest
import HintCheck.Proofs.Ty.DeclText

set_option relaxedAutoImplicit false
set_option autoImplicit false

namespace HintCheck

namespace Ty

open Text

/-- An alternative as it is suggested for documentation: an array of a class stands for a plain
array, whose values a declaration does not tell. -/
def specific : Ty → Ty
  | atom .array => array (named "SomeClass".toList) 1
  | t => t

/-- The union of the alternatives that are suggested for a declared type. -/
def suggestedDoc (t : Ty) : Ty := unionOf ((flatten t).map specific)

variable {t m : Ty}

/-! ### The suggested alternatives -/

/-- Only a plain array is replaced. -/
theorem specific_cases (m : Ty) :
    (m = atom .array ∧ specific m = array (named "SomeClass".toList) 1) ∨
      (m ≠ atom .array ∧ specific m = m) := by
  cases m with
  | atom a =>
      cases a with
      | array => exact Or.inl ⟨rfl, rfl⟩
      | _ => exact Or.inr ⟨nofun, rfl⟩
  | _ => exact Or.inr ⟨nofun, rfl⟩

/-- What holds of an alternative and of the array of a class holds of what is suggested. -/
theorem specific_of {P : Ty → Prop} (hclass : P (array (named "SomeClass".toList) 1)) (hm : P m) :
    P (specific m) := by
  rcases specific_cases m with ⟨_, h⟩ | ⟨_, h⟩
  · rwa [h]
  · rwa [h]

theorem isMember_specific (h : IsMember m) : IsMember (specific m) :=
  specific_of (P := IsMember) trivial h

theorem normal_specific (h : Normal m) : Normal (specific m) :=
  specific_of (P := Normal) ⟨Nat.le_refl 1, trivial, trivial⟩ h

theorem optionalFree_specific (h : OptionalFree m) : OptionalFree (specific m) :=
  specific_of (P := OptionalFree) (.array 1 (.named _)) h

theorem plainNames_specific (h : PlainNames m) : PlainNames (specific m) :=
  specific_of (P := PlainNames) (.array 1 (.named ⟨by decide, by decide⟩)) h

/-- A type with an equal among what is suggested for an alternative fits the alternative. -/
theorem compatible_of_same_specific {k : Ty} (hm : IsMember m) (hk : Normal k)
    (hs : same k (specific m) = true) : compatible k m = true := by
  rcases specific_cases m with ⟨rfl, h⟩ | ⟨_, h⟩
  · rw [h] at hs
    cases k with
    | array e d => simp [compatible, arrayFitsAtom]
    | _ => simp [same] at hs
  · rw [h] at hs
    have hkm : IsMember k := by
      cases k <;> cases m <;> simp_all [same, IsMember]
    exact compatible_of_same hkm hk hs

/-! ### The alternatives of the declared type -/

theorem plainNames_of_mem_flatten (h : PlainNames t) (hm : m ∈ flatten t) : PlainNames m := by
  refine of_mem_flatten ?_ ?_ (.atom .null) (fun _ _ h => h) h hm
  · intro ms h
    cases h with
    | union hms => exact hms
  · intro u h
    cases h with
    | optional hu => exact hu

theorem optionalFree_of_mem_flatten (h : OptionalAtRoot t) (hm : m ∈ flatten t) :
    OptionalFree m := by
  have hfree : ∀ {t}, OptionalFree t → m ∈ flatten t → OptionalFree m := by
    intro t h hm
    refine of_mem_flatten ?_ (fun u h => by cases h) (.atom .null) (fun _ _ h => h) h hm
    intro ms h
    cases h with
    | union hms => exact hms
  cases h with
  | without h => exact hfree h hm
  | optional h =>
      rw [flatten] at hm
      rcases List.mem_append.1 hm with hm | hm
      · exact hfree h hm
      · rw [List.mem_singleton.1 hm]
        exact .atom .null

/-! ### The suggested text -/

theorem exampleDoc?_of_isMember (h : IsMember m) : exampleDoc? m = some (docText (specific m)) := by
  cases m with
  | atom a => cases a <;> rfl
  | named n => rfl
  | array e d => rfl
  | generic n ps => rfl
  | _ => exact absurd h (by simp [IsMember])

theorem exampleDocs_of_isMember {ts : List Ty} (h : ∀ t ∈ ts, IsMember t) :
    exampleDocs ts = ts.map fun m => docText (specific m) := by
  induction ts with
  | nil => rfl
  | cons t ts ih =>
      rw [exampleDocs, exampleDoc?_of_isMember (h t (by simp)), ih fun u hu => h u (by simp [hu])]
      rfl

/-- The suggestion is spelled alternative by alternative. -/
theorem exampleDoc?_eq (hn : Normal t) :
    exampleDoc? t = some (Text.join "|" ((flatten t).map fun m => docText (specific m))) := by
  rcases flatten_of_normal hn with ⟨hm, h⟩ | ⟨ms, rfl, h⟩ | ⟨u, rfl, h⟩
  · rw [h, exampleDoc?_of_isMember hm]
    simp [Text.join]
  · rw [h, exampleDoc?, exampleDocs_of_isMember hn.members.2.1]
  · have hnull : docText (specific (atom .null)) = "null".toList := rfl
    rw [h, exampleDoc?, exampleDoc?_of_isMember (isMember_of_isOptionable hn.1)]
    simp [Text.join, hnull]

/-- Alternatives that a text names are put together as a union. -/
theorem ofAlternatives_of_isMember {ts : List Ty} (h : ∀ t ∈ ts, IsMember t) :
    ofAlternatives ts = unionOf ts := by
  match ts with
  | [] => rfl
  | [t] =>
      rw [unionOf_of_pairwise h (List.pairwise_singleton _ t)]
      rfl
  | t :: t' :: ts => rfl

/-- What is suggested for an alternative is read back as it is. -/
theorem read_docText_specific (hn : Normal t) (h : PlainNames t) (hroot : OptionalAtRoot t)
    (hm : m ∈ flatten t) : read (docText (specific m)) = specific m := by
  have hnm := normal_specific (normal_of_mem_flatten hn.normalOrAbsent hm)
  rw [read_docText_of_plainNames (plainNames_specific (plainNames_of_mem_flatten h hm))
      hnm.normalOrAbsent,
    denull_of_optionalFree (optionalFree_specific (optionalFree_of_mem_flatten hroot hm))
      hnm.normalOrAbsent]

/-- The suggestion is read as the union of what is suggested for the alternatives. -/
theorem read_exampleDoc? (hn : Normal t) (h : PlainNames t) (hroot : OptionalAtRoot t) :
    ∃ text, exampleDoc? t = some text ∧ read text = suggestedDoc t := by
  refine ⟨_, exampleDoc?_eq hn, ?_⟩
  have hspelled : ∀ p ∈ (flatten t).map fun m => docText (specific m),
      Balanced p ∧ TopFree '|' p := by
    intro p hp
    obtain ⟨m, hm, rfl⟩ := List.mem_map.1 hp
    have hplain := plainNames_specific (plainNames_of_mem_flatten h hm)
    exact ⟨(isSpelling_docText hplain).balanced,
      topFree_docText hplain (isMember_specific (isMember_of_mem_flatten hm))⟩
  have hread : ((flatten t).map fun m => docText (specific m)).map read =
      (flatten t).map specific := by
    rw [List.map_map]
    exact List.map_congr_left fun m hm => read_docText_specific hn h hroot hm
  rw [read_join_bar (by simpa using flatten_ne_nil hn) hspelled, hread, suggestedDoc]
  refine ofAlternatives_of_isMember ?_
  simpa using fun m hm => isMember_specific (isMember_of_mem_flatten hm)

/-! ### The suggested type -/

/-- The alternatives of the suggested type are those that are suggested, without repetitions. -/
theorem expand_suggestedDoc (hn : Normal t) :
    expand (suggestedDoc t) = dedup ((flatten t).map specific) ∧
      (suggestedDoc t).isDefined = true := by
  refine expand_unionOf (by simpa using flatten_ne_nil hn) ?_
  simpa using fun m hm => isMember_specific (isMember_of_mem_flatten hm)

/-- The suggested type fits the declared one. -/
theorem suggestedDoc_fits (hn : Normal t) : (compare (suggestedDoc t) t).isEmpty = true := by
  have halternatives := alternatives_expand hn
  have hexpand := (expand_suggestedDoc hn).1
  refine isEmpty_compare ?_ ?_
  · intro k hk
    rw [hexpand] at hk
    obtain ⟨m, hm, rfl⟩ := List.mem_map.1 (mem_of_mem_dedup hk)
    have hm := (mem_flatten_iff hn).1 hm
    exact ⟨m, hm, compatible_of_same_specific (halternatives.isMember m hm)
      (normal_specific (halternatives.normal m hm)) (same_refl _)⟩
  · intro m hm
    have hmember := List.mem_map_of_mem (f := specific) ((mem_flatten_iff hn).2 hm)
    obtain ⟨k, hk, hs⟩ := exists_same_of_mem_dedup hmember
    have hnk : Normal k := by
      obtain ⟨m', hm', rfl⟩ := List.mem_map.1 (mem_of_mem_dedup hk)
      exact normal_specific (halternatives.normal m' ((mem_flatten_iff hn).1 hm'))
    exact ⟨k, by rwa [hexpand], compatible_of_same_specific (halternatives.isMember m hm) hnk hs⟩

/-- **A suggested spelling always fits.**  For every declared type with `?T` at the outermost place
only, a spelling is suggested, and what it is read as fits the declared type. -/
theorem exampleDoc?_fits (hn : Normal t) (h : PlainNames t) (hroot : OptionalAtRoot t) :
    ∃ text, exampleDoc? t = some text ∧ (compare (read text) t).isEmpty = true := by
  obtain ⟨text, htext, hread⟩ := read_exampleDoc? hn h hroot
  exact ⟨text, htext, by rw [hread]; exact suggestedDoc_fits hn⟩

/-- Of a plain array, a map to arrays of arrays and null. -/
theorem exampleDoc?_fits_of_map :
    ∃ text, exampleDoc? (union [atom .array,
        generic "Map".toList [atom .string, array (atom .array) 2], atom .null]) = some text ∧
      (compare (read text) (union [atom .array,
        generic "Map".toList [atom .string, array (atom .array) 2], atom .null])).isEmpty =
          true := by
  have hMap : IsPlainName "Map".toList := ⟨by decide, by decide⟩
  have hparams : ∀ p ∈ [atom .string, array (atom .array) 2], PlainNames p ∧ OptionalFree p := by
    simpa using ⟨⟨.atom _, .atom _⟩, .array 2 (.atom _), .array 2 (.atom _)⟩
  have hmembers : ∀ m ∈ [atom .array,
      generic "Map".toList [atom .string, array (atom .array) 2], atom .null],
      PlainNames m ∧ OptionalFree m := by
    simpa using ⟨⟨.atom _, .atom _⟩, ⟨.generic hMap (by simp) fun p hp => (hparams p hp).1,
      .generic _ fun p hp => (hparams p hp).2⟩, .atom _, .atom _⟩
  have hn : Normal (union [atom .array,
      generic "Map".toList [atom .string, array (atom .array) 2], atom .null]) := by
    simp [Normal, NormalAll, NormalParams, IsElement, IsMember, same]
  exact exampleDoc?_fits hn (.union fun m hm => (hmembers m hm).1)
    (.without (.union fun m hm => (hmembers m hm).2))

end Ty

end HintCheck
