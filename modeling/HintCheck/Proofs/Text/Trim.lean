/-
**Blanks at the ends of a text.**

Readers take their input apart and trim every piece, so that a blank in front of a text or behind
it never reaches a result.  This module says what trimming does to a text that is put together
from parts.

Main definitions:

* `HintCheck.Text.AllBlank` — a text of blanks only.

Main results:

* `HintCheck.Text.trim_append_of_allBlank`, `HintCheck.Text.trim_of_allBlank_append` — blanks
  around a text do not matter;
* `HintCheck.Text.trim_cons`, `HintCheck.Text.trim_append_singleton` — what stays is everything
  between the first and the last character that is not blank;
* `HintCheck.Text.trim_trim` — trimming twice is trimming once;
* `HintCheck.Text.exists_append_trim` — only blanks are left out.
-/

import HintCheck.Text.Basic

set_option relaxedAutoImplicit false
set_option autoImplicit false

namespace HintCheck

namespace Text

/-- A text of blanks only. -/
def AllBlank (cs : Text) : Prop := ∀ c ∈ cs, isBlank c = true

instance (cs : Text) : Decidable (AllBlank cs) :=
  decidable_of_iff (cs.all isBlank = true) List.all_eq_true

theorem allBlank_nil : AllBlank [] := by
  intro c hc
  simp at hc

theorem allBlank_cons {c : Char} {cs : Text} :
    AllBlank (c :: cs) ↔ isBlank c = true ∧ AllBlank cs := by
  simp [AllBlank]

/-! ### The end of a text -/

/-- A blank at the end is left out. -/
theorem trimEnd_append_blank {c : Char} (hc : isBlank c = true) (cs : Text) :
    trimEnd (cs ++ [c]) = trimEnd cs := by
  simp [trimEnd, dropEndWhile, hc]

/-- Any other character stays, with everything in front of it. -/
theorem trimEnd_append_singleton {c : Char} (hc : isBlank c = false) (cs : Text) :
    trimEnd (cs ++ [c]) = cs ++ [c] := by
  simp [trimEnd, dropEndWhile, hc]

/-- A character in front that is not blank stays, whatever follows. -/
theorem trimEnd_cons {c : Char} (hc : isBlank c = false) (cs : Text) :
    trimEnd (c :: cs) = c :: trimEnd cs := by
  simp only [trimEnd, dropEndWhile, List.reverse_cons, List.dropWhile_append]
  split
  · next h => simp [hc, List.isEmpty_iff.1 h]
  · simp

/-- A text is what trimming its end leaves, and blanks. -/
theorem trimEnd_append_rest (cs : Text) : ∃ w, AllBlank w ∧ cs = trimEnd cs ++ w := by
  refine ⟨(cs.reverse.takeWhile isBlank).reverse, ?_, ?_⟩
  · intro c hc
    exact List.all_eq_true.1 (List.all_takeWhile (l := cs.reverse)) c (by simpa using hc)
  · have h := congrArg List.reverse (List.takeWhile_append_dropWhile (p := isBlank)
      (l := cs.reverse))
    rw [List.reverse_append, List.reverse_reverse] at h
    exact h.symm

/-! ### The beginning of a text -/

theorem trimStart_cons {c : Char} (hc : isBlank c = false) (cs : Text) :
    trimStart (c :: cs) = c :: cs := by
  simp [trimStart, hc]

/-- A text is blanks, and what trimming its beginning leaves. -/
theorem rest_append_trimStart (cs : Text) : ∃ w, AllBlank w ∧ cs = w ++ trimStart cs :=
  ⟨cs.takeWhile isBlank, fun c hc => List.all_eq_true.1 List.all_takeWhile c hc,
    List.takeWhile_append_dropWhile.symm⟩

/-- Behind a beginning that is not blank everything stays. -/
theorem trimStart_append {s : Text} (hs : trimStart s ≠ []) (t : Text) :
    trimStart (s ++ t) = trimStart s ++ t := by
  rw [trimStart, List.dropWhile_append, if_neg (by simpa [trimStart] using hs)]
  rfl

/-- What is left behind the blanks at the beginning does not begin with a blank. -/
theorem isBlank_of_trimStart_eq_cons {c : Char} {cs rest : Text} (h : trimStart cs = c :: rest) :
    isBlank c = false := by
  have hne : cs.dropWhile isBlank ≠ [] := by
    intro h'
    rw [trimStart, h'] at h
    cases h
  have hhead := List.head_dropWhile_not isBlank hne
  have hc : (cs.dropWhile isBlank).head hne = c := by
    simp only [trimStart] at h
    simp [h]
  rwa [hc] at hhead

theorem trimStart_trimStart (cs : Text) : trimStart (trimStart cs) = trimStart cs := by
  cases h : trimStart cs with
  | nil => rfl
  | cons c rest => exact trimStart_cons (isBlank_of_trimStart_eq_cons h) rest

theorem trimEnd_trimEnd (cs : Text) : trimEnd (trimEnd cs) = trimEnd cs := by
  have h := congrArg List.reverse (trimStart_trimStart cs.reverse)
  simpa [trimEnd, dropEndWhile, trimStart] using h

/-! ### Both ends -/

theorem trim_blank_cons {c : Char} (hc : isBlank c = true) (cs : Text) :
    trim (c :: cs) = trim cs := by
  simp [trim, trimStart, hc]

theorem trim_append_blank {c : Char} (hc : isBlank c = true) (cs : Text) :
    trim (cs ++ [c]) = trim cs := by
  simp only [trim, trimStart, List.dropWhile_append]
  split
  · next h => simp [hc, List.isEmpty_iff.1 h]
  · exact trimEnd_append_blank hc _

/-- Blanks behind a text do not matter. -/
theorem trim_append_of_allBlank {w : Text} (hw : AllBlank w) (cs : Text) :
    trim (cs ++ w) = trim cs := by
  induction w generalizing cs with
  | nil => simp
  | cons b w ih =>
      obtain ⟨hb, hw⟩ := allBlank_cons.1 hw
      have h := ih hw (cs ++ [b])
      rw [List.append_assoc, List.singleton_append] at h
      rw [h, trim_append_blank hb]

/-- Blanks in front of a text do not matter. -/
theorem trim_of_allBlank_append {w : Text} (hw : AllBlank w) (cs : Text) :
    trim (w ++ cs) = trim cs := by
  induction w with
  | nil => rfl
  | cons b w ih =>
      obtain ⟨hb, hw⟩ := allBlank_cons.1 hw
      rw [List.cons_append, trim_blank_cons hb, ih hw]

theorem trim_cons {c : Char} (hc : isBlank c = false) (cs : Text) :
    trim (c :: cs) = c :: trimEnd cs := by
  rw [trim, trimStart_cons hc, trimEnd_cons hc]

theorem trim_trimEnd (cs : Text) : trim (trimEnd cs) = trim cs := by
  obtain ⟨w, hw, h⟩ := trimEnd_append_rest cs
  calc trim (trimEnd cs) = trim (trimEnd cs ++ w) := (trim_append_of_allBlank hw _).symm
    _ = trim cs := by rw [← h]

/-- Trimming twice is trimming once. -/
theorem trim_trim (cs : Text) : trim (trim cs) = trim cs := by
  obtain ⟨w, hw, h⟩ := rest_append_trimStart cs
  calc trim (trim cs) = trim (trimStart cs) := trim_trimEnd _
    _ = trim (w ++ trimStart cs) := (trim_of_allBlank_append hw _).symm
    _ = trim cs := by rw [← h]

/-- Only blanks are left out, at both ends. -/
theorem exists_append_trim (cs : Text) :
    ∃ w w', AllBlank w ∧ AllBlank w' ∧ cs = w ++ trim cs ++ w' := by
  obtain ⟨w, hw, h⟩ := rest_append_trimStart cs
  obtain ⟨w', hw', h'⟩ := trimEnd_append_rest (trimStart cs)
  refine ⟨w, w', hw, hw', ?_⟩
  rw [trim, List.append_assoc, ← h', ← h]

theorem infix_trim (cs : Text) : trim cs <:+: cs := by
  obtain ⟨w, w', _, _, h⟩ := exists_append_trim cs
  exact ⟨w, w', h.symm⟩

/-- A character at the end that is not blank stays, with everything behind the blanks in front. -/
theorem trim_append_singleton {c : Char} (hc : isBlank c = false) (cs : Text) :
    trim (cs ++ [c]) = trimStart cs ++ [c] := by
  simp only [trim, trimStart, List.dropWhile_append]
  split
  · next h => simp [hc, List.isEmpty_iff.1 h, trimEnd, dropEndWhile]
  · exact trimEnd_append_singleton hc _

/-- A text that neither begins nor ends with a blank is trimmed. -/
theorem trim_eq_self {a b : Char} {cs : Text} (hfirst : cs.head? = some a)
    (hlast : cs.getLast? = some b) (ha : isBlank a = false) (hb : isBlank b = false) :
    trim cs = cs := by
  obtain ⟨front, rfl⟩ := List.getLast?_eq_some_iff.1 hlast
  rw [trim_append_singleton hb]
  cases front with
  | nil => rfl
  | cons c cs =>
      simp only [List.cons_append, List.head?_cons, Option.some.injEq] at hfirst
      rw [hfirst, trimStart_cons ha]

/-- A trimmed text that is not empty begins behind the blanks in front. -/
theorem exists_trimStart_of_trim_eq_cons {c : Char} {cs rest : Text} (h : trim cs = c :: rest) :
    isBlank c = false ∧ ∃ tail, trimStart cs = c :: tail ∧ rest = trimEnd tail := by
  cases hs : trimStart cs with
  | nil =>
      rw [trim, hs] at h
      cases h
  | cons a tail =>
      have ha := isBlank_of_trimStart_eq_cons hs
      rw [trim, hs, trimEnd_cons ha] at h
      cases h
      exact ⟨ha, tail, rfl, rfl⟩

/-- Trimming takes away nothing but blanks. -/
theorem mem_trim {c : Char} (hc : isBlank c = false) (cs : Text) : c ∈ trim cs ↔ c ∈ cs := by
  obtain ⟨w, w', hw, hw', h⟩ := exists_append_trim cs
  have hno : ∀ {v : Text}, AllBlank v → c ∉ v := by
    intro v hv hmem
    rw [hv c hmem] at hc
    cases hc
  conv => rhs; rw [h]
  simp [hno hw, hno hw']

end Text

end HintCheck
