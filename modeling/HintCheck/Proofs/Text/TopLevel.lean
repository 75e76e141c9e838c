/-
**The top level of balanced texts.**

The scanners of `HintCheck.Text.Brackets` pass over a balanced text as over a single character: a
text is cut at a separator behind a balanced one, a balanced text is cut only where its own
separators stand outside of brackets, and the bracket around it is closed right behind it.

Main results:

* `HintCheck.Text.infix_of_mem_splitTop` — a piece stands somewhere in the text;
* `HintCheck.Text.splitTop_trim` — blanks around a text do not change its pieces;
* `HintCheck.Text.splitTop_append` — a separator behind a balanced text always cuts;
* `HintCheck.Text.splitTop_of_topFree` — without a separator outside of brackets there is one
  piece;
* `HintCheck.Text.untilClosed_of_balanced` — **the bracket around a balanced text is found**.
-/

import HintCheck.Proofs.Text.Balanced

set_option relaxedAutoImplicit false
set_option autoImplicit false

namespace HintCheck

namespace Text

/-! ### Pieces -/

theorem pushFirst_ne_nil (c : Char) (pieces : List Text) : pushFirst c pieces ≠ [] := by
  cases pieces <;> simp [pushFirst]

/-- Only the first piece changes, so more pieces can follow. -/
theorem pushFirst_append (c : Char) {ps : List Text} (h : ps ≠ []) (qs : List Text) :
    pushFirst c (ps ++ qs) = pushFirst c ps ++ qs := by
  cases ps with
  | nil => exact absurd rfl h
  | cons p ps => rfl

theorem splitTopFrom_ne_nil (separator : Char) (d : Nat) (q : Option Char) (cs : Text) :
    splitTopFrom separator d q cs ≠ [] := by
  fun_cases splitTopFrom separator d q cs with
  | case1 => simp
  | case6 => simp
  | case2 | case3 | case4 | case5 | case7 => exact pushFirst_ne_nil _ _

/-! ### Pieces are parts of the text -/

theorem intercalate_pushFirst (separator : Text) (c : Char) (ps : List Text) :
    separator.intercalate (pushFirst c ps) = c :: separator.intercalate ps := by
  match ps with
  | [] => simp [pushFirst]
  | [p] => simp [pushFirst]
  | p :: q :: ps => simp [pushFirst, List.intercalate_cons_cons]

/-- Nothing but the separators is left out. -/
theorem intercalate_splitTopFrom (separator : Char) (d : Nat) (q : Option Char) (cs : Text) :
    [separator].intercalate (splitTopFrom separator d q cs) = cs := by
  fun_induction splitTopFrom separator d q cs with
  | case1 => simp
  | case2 | case3 | case4 | case5 | case7 =>
      rename_i ih
      rw [intercalate_pushFirst, ih]
  | case6 d c cs _ _ _ hc ih =>
      obtain ⟨rfl, rfl⟩ := hc
      cases hs : splitTopFrom c 0 none cs with
      | nil => exact absurd hs (splitTopFrom_ne_nil _ _ _ _)
      | cons p ps =>
          rw [List.intercalate_cons_cons, ← hs, ih]
          rfl

theorem infix_intercalate {p : Text} {ps : List Text} (separator : Text) (hp : p ∈ ps) :
    p <:+: separator.intercalate ps := by
  induction ps with
  | nil => cases hp
  | cons q qs ih =>
      cases qs with
      | nil => simp_all
      | cons r rs =>
          rw [List.intercalate_cons_cons]
          rcases List.mem_cons.1 hp with rfl | hp
          · exact ((List.prefix_append _ _).trans (List.prefix_append _ _)).isInfix
          · exact (ih hp).trans (List.suffix_append _ _).isInfix

/-- A piece stands somewhere in the text. -/
theorem infix_of_mem_splitTop {separator : Char} {cs p : Text} (h : p ∈ splitTop separator cs) :
    p <:+: cs := by
  obtain ⟨q, hq, rfl⟩ := List.mem_map.1 h
  have hpiece := infix_intercalate [separator] hq
  rw [intercalate_splitTopFrom] at hpiece
  exact (infix_trim q).trans hpiece

/-! ### One step of the splitter -/

/-- A character that the counter passes over goes to the first piece, unless it cuts. -/
theorem splitTopFrom_cons_of_step {separator c : Char} {d e : Nat} (h : depthStep? d c = some e)
    (hc : ¬(c = separator ∧ d = 0)) (cs : Text) :
    splitTopFrom separator d none (c :: cs) = pushFirst c (splitTopFrom separator e none cs) := by
  obtain ⟨hq, ⟨ho, rfl⟩ | ⟨ho, hcl, rfl⟩ | ⟨ho, hcl, rfl⟩⟩ := depthStep?_cases h
  · simp [splitTopFrom, hq, ho]
  · simp [splitTopFrom, hq, ho, hcl]
  · rw [splitTopFrom, if_neg (by simp [hq]), if_neg (by simp [ho]), if_neg (by simp [hcl]),
      if_neg hc]

/-- A separator at depth zero cuts. -/
theorem splitTopFrom_cons_separator {separator : Char} (h : IsPlain separator) (cs : Text) :
    splitTopFrom separator 0 none (separator :: cs) =
      [] :: splitTopFrom separator 0 none cs := by
  simp [splitTopFrom, h.isQuote, h.isOpen, h.isClose]

/-! ### Blanks around a text -/

/-- A blank in front goes to the first piece. -/
theorem splitTopFrom_blank_cons {separator b : Char} (hsep : isBlank separator = false)
    (hb : isBlank b = true) (d : Nat) (cs : Text) :
    splitTopFrom separator d none (b :: cs) =
      pushFirst b (splitTopFrom separator d none cs) := by
  refine splitTopFrom_cons_of_step (depthStep?_of_isPlain (isPlain_of_isBlank hb) d) ?_ cs
  rintro ⟨rfl, _⟩
  rw [hb] at hsep
  cases hsep

/-- A blank behind the text goes to the last piece, at any depth and also inside a quotation. -/
theorem splitTopFrom_append_blank {separator b : Char} (hsep : isBlank separator = false)
    (hb : isBlank b = true) (d : Nat) (q : Option Char) (cs : Text) :
    ∃ front last, splitTopFrom separator d q cs = front ++ [last] ∧
      splitTopFrom separator d q (cs ++ [b]) = front ++ [last ++ [b]] := by
  have hbs : b ≠ separator := by
    rintro rfl
    rw [hb] at hsep
    cases hsep
  have hp := isPlain_of_isBlank hb
  -- a character in front of the first piece leaves the last piece at its place
  have push : ∀ (c : Char) {ps qs : List Text},
      (∃ front last, ps = front ++ [last] ∧ qs = front ++ [last ++ [b]]) →
      ∃ front last, pushFirst c ps = front ++ [last] ∧
        pushFirst c qs = front ++ [last ++ [b]] := by
    rintro c ps qs ⟨front, last, rfl, rfl⟩
    cases front with
    | nil => exact ⟨[], c :: last, rfl, rfl⟩
    | cons p front => exact ⟨(c :: p) :: front, last, rfl, rfl⟩
  induction cs generalizing d q with
  | nil =>
      refine ⟨[], [], by simp [splitTopFrom], ?_⟩
      cases q with
      | none =>
          simp [splitTopFrom, hp.isQuote, hp.isOpen, hp.isClose, hbs, pushFirst]
      | some quote => simp [splitTopFrom, pushFirst]
  | cons c cs ih =>
      cases q with
      | some quote =>
          simp only [List.cons_append, splitTopFrom]
          exact push c (ih _ _)
      | none =>
          simp only [List.cons_append, splitTopFrom]
          split
          · exact push c (ih _ _)
          · split
            · exact push c (ih _ _)
            · split
              · exact push c (ih _ _)
              · split
                · obtain ⟨front, last, h₁, h₂⟩ := ih 0 none
                  exact ⟨[] :: front, last, by rw [h₁]; rfl, by rw [h₂]; rfl⟩
                · exact push c (ih _ _)

theorem splitTop_of_allBlank_append {separator : Char} (hsep : isBlank separator = false) {w : Text}
    (hw : AllBlank w) (cs : Text) : splitTop separator (w ++ cs) = splitTop separator cs := by
  induction w with
  | nil => rfl
  | cons b w ih =>
      obtain ⟨hb, hw⟩ := allBlank_cons.1 hw
      have ih := ih hw
      rw [splitTop, List.cons_append, splitTopFrom_blank_cons hsep hb, ← ih, splitTop]
      cases hs : splitTopFrom separator 0 none (w ++ cs) with
      | nil => exact absurd hs (splitTopFrom_ne_nil _ _ _ _)
      | cons p ps => simp [pushFirst, trim_blank_cons hb]

theorem splitTop_append_of_allBlank {separator : Char} (hsep : isBlank separator = false) {w : Text}
    (hw : AllBlank w) (cs : Text) : splitTop separator (cs ++ w) = splitTop separator cs := by
  induction w generalizing cs with
  | nil => simp
  | cons b w ih =>
      obtain ⟨hb, hw⟩ := allBlank_cons.1 hw
      have ih := ih hw (cs ++ [b])
      rw [List.append_assoc, List.singleton_append] at ih
      rw [ih]
      obtain ⟨front, last, h₁, h₂⟩ := splitTopFrom_append_blank hsep hb 0 none cs
      simp [splitTop, h₁, h₂, trim_append_blank hb]

/-- Blanks around a text do not change its pieces. -/
theorem splitTop_trim {separator : Char} (hsep : isBlank separator = false) (cs : Text) :
    splitTop separator (trim cs) = splitTop separator cs := by
  obtain ⟨w, hw, h⟩ := rest_append_trimStart cs
  obtain ⟨w', hw', h'⟩ := trimEnd_append_rest (trimStart cs)
  calc splitTop separator (trim cs)
      = splitTop separator (trim cs ++ w') := (splitTop_append_of_allBlank hsep hw' _).symm
    _ = splitTop separator (trimStart cs) := by rw [trim, ← h']
    _ = splitTop separator (w ++ trimStart cs) := (splitTop_of_allBlank_append hsep hw _).symm
    _ = splitTop separator cs := by rw [← h]

/-! ### Balanced texts side by side -/

theorem splitTopFrom_append {separator : Char} (hsep : IsPlain separator) {d : Nat} {s : Text}
    (hs : depthAfter? d s = some 0) (t : Text) :
    splitTopFrom separator d none (s ++ separator :: t) =
      splitTopFrom separator d none s ++ splitTopFrom separator 0 none t := by
  induction s generalizing d with
  | nil =>
      simp only [depthAfter?_nil, Option.some.injEq] at hs
      subst hs
      rw [List.nil_append, splitTopFrom_cons_separator hsep]
      simp [splitTopFrom]
  | cons c s ih =>
      obtain ⟨e, hd, hs⟩ := depthAfter?_cons_eq_some.1 hs
      by_cases hc : c = separator ∧ d = 0
      · obtain ⟨rfl, rfl⟩ := hc
        rw [depthStep?_of_isPlain hsep, Option.some.injEq] at hd
        subst hd
        rw [List.cons_append, splitTopFrom_cons_separator hsep, splitTopFrom_cons_separator hsep,
          ih hs, List.cons_append]
      · rw [List.cons_append, splitTopFrom_cons_of_step hd hc, splitTopFrom_cons_of_step hd hc,
          ih hs, pushFirst_append c (splitTopFrom_ne_nil _ _ _ _)]

/-- A separator behind a balanced text always cuts. -/
theorem splitTop_append {separator : Char} (hsep : IsPlain separator) {s : Text} (hs : Balanced s)
    (t : Text) :
    splitTop separator (s ++ separator :: t) = splitTop separator s ++ splitTop separator t := by
  rw [splitTop, splitTopFrom_append hsep hs, List.map_append]
  rfl

theorem splitTopFrom_of_topFree {separator : Char} {d e : Nat} {cs : Text}
    (hs : depthAfter? d cs = some e) (hfree : TopFreeFrom separator d cs) :
    splitTopFrom separator d none cs = [cs] := by
  induction cs generalizing d with
  | nil => simp [splitTopFrom]
  | cons c cs ih =>
      obtain ⟨d', hd, hs⟩ := depthAfter?_cons_eq_some.1 hs
      obtain ⟨hfirst, hrest⟩ := topFreeFrom_cons.1 hfree
      rw [splitTopFrom_cons_of_step hd hfirst, ih hs (hrest d' hd)]
      rfl

/-- A balanced text without a separator outside of brackets is one piece. -/
theorem splitTop_of_topFree {separator : Char} {cs : Text} (hs : Balanced cs)
    (hfree : TopFree separator cs) : splitTop separator cs = [trim cs] := by
  rw [splitTop, splitTopFrom_of_topFree hs hfree]
  rfl

/-! ### The end of a bracket -/

theorem untilClosed_cons_of_step {c : Char} {d e : Nat} (h : depthStep? d c = some e) (cs : Text) :
    untilClosed d (c :: cs) = (untilClosed e cs).map (consInside c) := by
  obtain ⟨hq, ⟨ho, rfl⟩ | ⟨ho, hc, rfl⟩ | ⟨ho, hc, rfl⟩⟩ := depthStep?_cases h
  · simp [untilClosed, ho]
  · simp [untilClosed, ho, hc]
  · simp [untilClosed, ho, hc]

theorem untilClosed_append {d e : Nat} {s : Text} (hs : depthAfter? d s = some e) (t : Text) :
    untilClosed d (s ++ t) = (untilClosed e t).map fun r => (s ++ r.1, r.2) := by
  induction s generalizing d with
  | nil =>
      simp only [depthAfter?_nil, Option.some.injEq] at hs
      subst hs
      simp
  | cons c s ih =>
      obtain ⟨d', hd, hs⟩ := depthAfter?_cons_eq_some.1 hs
      rw [List.cons_append, untilClosed_cons_of_step hd, ih hs, Option.map_map]
      rfl

/-- **The bracket around a balanced text is found.** -/
theorem untilClosed_of_balanced {s : Text} (hs : Balanced s) {c : Char} (hc : isClose c = true)
    (rest : Text) : untilClosed 0 (s ++ c :: rest) = some (s, rest) := by
  rw [untilClosed_append hs]
  simp [untilClosed, isOpen_eq_false_of_isClose hc, hc]

end Text

end HintCheck
