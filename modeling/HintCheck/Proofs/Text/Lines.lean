/-
**Joined lines.**

Lines that are joined by line feeds are the lines of the joined text, as long as none of them holds
a line feed or ends with a carriage return, which a line feed behind it would swallow.

Main definitions:

* `HintCheck.Text.IsLine` — a text that can stand on a line of its own.

Main results:

* `HintCheck.Text.lines_append` — the first line of a text, and the lines behind it;
* `HintCheck.Text.lines_join` — **joining lines is undone by reading lines**.
-/

import HintCheck.Proofs.Text.Trim

set_option relaxedAutoImplicit false
set_option autoImplicit false

namespace HintCheck

namespace Text

/-- A text that can stand on a line of its own. -/
structure IsLine (l : Text) : Prop where
  newline : '\n' ∉ l
  carriage : l.getLast? ≠ some '\r'

/-- A character that ends no line belongs to the first line. -/
theorem lines_cons {c : Char} {cs : Text} (hc : c ≠ '\n') (hcr : c = '\r' → cs.head? ≠ some '\n') :
    lines (c :: cs) = pushFirst c (lines cs) := by
  rw [lines]
  · rintro rest rfl rfl
    exact hcr rfl rfl
  · exact hc

theorem lines_newline (cs : Text) : lines ('\n' :: cs) = [] :: lines cs := by
  rw [lines]

/-- What stands in front of a line feed is a line. -/
theorem lines_append {l : Text} (hl : IsLine l) (rest : Text) :
    lines (l ++ '\n' :: rest) = l :: lines rest := by
  obtain ⟨hnew, hcar⟩ := hl
  induction l with
  | nil => exact lines_newline rest
  | cons c cs ih =>
      simp only [List.mem_cons, not_or] at hnew
      have hrest : cs.getLast? ≠ some '\r' := by
        intro h
        exact hcar (by rw [List.getLast?_cons, h]; rfl)
      have hcr : c = '\r' → (cs ++ '\n' :: rest).head? ≠ some '\n' := by
        rintro rfl h
        cases cs with
        | nil => exact hcar rfl
        | cons d ds =>
            simp only [List.cons_append, List.head?_cons, Option.some.injEq] at h
            exact hnew.2 (by simp [h])
      rw [List.cons_append, lines_cons (Ne.symm hnew.1) hcr, ih hnew.2 hrest]
      rfl

/-- A text that is not empty and holds no line feed is one line. -/
theorem lines_of_not_mem {l : Text} (hne : l ≠ []) (hnew : '\n' ∉ l) : lines l = [l] := by
  induction l with
  | nil => exact absurd rfl hne
  | cons c cs ih =>
      simp only [List.mem_cons, not_or] at hnew
      have hcr : c = '\r' → cs.head? ≠ some '\n' :=
        fun _ h => hnew.2 (List.mem_of_mem_head? h)
      rw [lines_cons (Ne.symm hnew.1) hcr]
      cases cs with
      | nil => rfl
      | cons d ds =>
          rw [ih (by simp) hnew.2]
          rfl

/-- **Joining lines is undone by reading lines.** -/
theorem lines_join {ls : List Text} (h : ∀ l ∈ ls, IsLine l) {last : Text} (hne : last ≠ [])
    (hlast : '\n' ∉ last) : lines (join "\n" (ls ++ [last])) = ls ++ [last] := by
  induction ls with
  | nil => simpa [join] using lines_of_not_mem hne hlast
  | cons l ls ih =>
      have ih := ih fun k hk => h k (List.mem_cons_of_mem _ hk)
      have hjoin : join "\n" (l :: ls ++ [last]) = l ++ '\n' :: join "\n" (ls ++ [last]) := by
        obtain ⟨k, ks, hks⟩ : ∃ k ks, ls ++ [last] = k :: ks :=
          List.exists_cons_of_ne_nil (by simp)
        rw [List.cons_append, hks, join, List.intercalate_cons_cons]
        simp [join]
      rw [hjoin, lines_append (h l List.mem_cons_self), ih, List.cons_append]

end Text

end HintCheck
