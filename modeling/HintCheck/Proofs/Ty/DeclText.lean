/-
**Reading back what a declaration spells.**

A declaration differs from documentation in one sign: at the outermost place null is a question mark
in front.  The reader takes the question mark before array brackets and parentheses, and bars before
the question mark, so that a declared `?T` comes back as `?T` and not as a union.  Below the
outermost place a declaration is spelled as documentation is, with one spelling of null.

Main definitions:

* `HintCheck.Ty.denullInside` — one spelling of null below the outermost place;
* `HintCheck.Ty.OptionalAtRoot` — the types with `?T` at the outermost place only.

Main results:

* `HintCheck.Ty.declText_of_not_optional` — without `?T` in front, both spellings are the same;
* `HintCheck.Ty.read_declText` — a declared type is read back, with one spelling of null inside;
* `HintCheck.Ty.declText_roundTrip` — **with `?T` at the outermost place only, it comes back
  unchanged.**
-/

import HintCheck.Proofs.Ty.DocText
import HintCheck.Proofs.Ty.Normal

set_option relaxedAutoImplicit false
set_option autoImplicit false

namespace HintCheck

namespace Ty

open Text

/-- The type in which every `?T` below the outermost place is spelled as the union of `T` and
null. -/
def denullInside : Ty → Ty
  | optional t => optional (denull t)
  | t => denull t

/-- No `?T` but, perhaps, at the outermost place. -/
inductive OptionalAtRoot : Ty → Prop where
  | without {t : Ty} (h : OptionalFree t) : OptionalAtRoot t
  | optional {t : Ty} (h : OptionalFree t) : OptionalAtRoot (.optional t)

/-! ### The spelling -/

theorem declText_of_isMember {t : Ty} (h : IsMember t) : declText t = docText t := by
  cases t <;> first | rfl | exact absurd h (by simp [IsMember])

/-- Without `?T` in front, a declaration is spelled as documentation is. -/
theorem declText_of_not_optional {t : Ty} (hn : NormalOrAbsent t) (h : ∀ u, t ≠ optional u) :
    declText t = docText t := by
  cases t with
  | union ms =>
      have hmember := (hn rfl).members.2.1
      rw [declText, declTexts_eq, docText_union]
      congr 1
      exact List.map_congr_left fun m hm => declText_of_isMember (hmember m hm)
  | optional u => exact absurd rfl (h u)
  | _ => rfl

/-- Behind a question mark stands a type that is spelled as in documentation. -/
theorem declText_optional {t : Ty} (h : IsOptionable t) :
    declText (optional t) = '?' :: docText t := by
  rw [declText, declText_of_isMember (isMember_of_isOptionable h)]

/-! ### One spelling of null inside -/

theorem denullInside_of_not_optional {t : Ty} (h : ∀ u, t ≠ optional u) :
    denullInside t = denull t := by
  cases t with
  | optional u => exact absurd rfl (h u)
  | _ => rfl

theorem denullInside_of_optionalAtRoot {t : Ty} (h : OptionalAtRoot t) (hn : NormalOrAbsent t) :
    denullInside t = t := by
  cases h with
  | without hfree =>
      rw [denullInside_of_not_optional (by rintro u rfl; cases hfree),
        denull_of_optionalFree hfree hn]
  | optional hfree => rw [denullInside, denull_of_optionalFree hfree (hn rfl).2.normalOrAbsent]

/-! ### Reading the spelling -/

/-- A declared type is read back, with one spelling of null below the outermost place. -/
theorem read_declText {t : Ty} (h : PlainNames t) (hn : NormalOrAbsent t) :
    read (declText t) = denullInside t := by
  by_cases hroot : ∃ u, t = optional u
  · obtain ⟨u, rfl⟩ := hroot
    obtain ⟨hoption, hnu⟩ := hn rfl
    cases h with
    | optional hu =>
        calc read (declText (optional u)) = read ('?' :: docText u) := by
              rw [declText_optional hoption]
          _ = nullable (read (docText u)) := read_question (isSpelling_docText hu).balanced
              (topFree_docText hu (isMember_of_isOptionable hoption))
          _ = nullable (denull u) := by rw [read_docText_of_plainNames hu hnu.normalOrAbsent]
          _ = optional (denull u) := nullable_of_isOptionable (isOptionable_denull hnu hoption)
  · have hnot : ∀ u, t ≠ optional u := fun u hu => hroot ⟨u, hu⟩
    rw [declText_of_not_optional hn hnot, read_docText_of_plainNames h hn,
      denullInside_of_not_optional hnot]

/-- **What a declaration spells is read back unchanged**, where `?T` stands at the outermost place
only. -/
theorem declText_roundTrip {t : Ty} (hn : NormalOrAbsent t) (h : PlainNames t)
    (hroot : OptionalAtRoot t) : read (declText t) = t := by
  rw [read_declText h hn, denullInside_of_optionalAtRoot hroot hn]

/-- A question mark in front of parentheses and array brackets. -/
theorem declText_roundTrip_of_optional_array :
    read "?(int|Map<string, A\\B[]>)[][]".toList =
      optional (array (union [atom .int,
        generic "Map".toList [atom .string, array (named "A\\B".toList) 1]]) 2) := by
  have hMap : IsPlainName "Map".toList := ⟨by decide, by decide⟩
  have hB : IsPlainName "A\\B".toList := ⟨by decide, by decide⟩
  have hparams : ∀ p ∈ [atom .string, array (named "A\\B".toList) 1],
      PlainNames p ∧ OptionalFree p := by
    simpa using ⟨⟨.atom _, .atom _⟩, .array 1 (.named hB), .array 1 (.named _)⟩
  have hmembers : ∀ m ∈ [atom .int,
      generic "Map".toList [atom .string, array (named "A\\B".toList) 1]],
      PlainNames m ∧ OptionalFree m := by
    simpa using ⟨⟨.atom _, .atom _⟩, .generic hMap (by simp) fun p hp => (hparams p hp).1,
      .generic _ fun p hp => (hparams p hp).2⟩
  have hn : Normal (optional (array (union [atom .int,
      generic "Map".toList [atom .string, array (named "A\\B".toList) 1]]) 2)) := by
    simp [Normal, NormalAll, NormalParams, IsOptionable, IsElement, IsMember, same]
  refine declText_roundTrip hn.normalOrAbsent ?_ ?_
  · exact .optional (.array 2 (.union fun m hm => (hmembers m hm).1))
  · exact .optional (.array 2 (.union fun m hm => (hmembers m hm).2))

end Ty

end HintCheck
