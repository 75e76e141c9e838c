/-
**Balanced texts.**

A text is balanced when it has no quotation mark and one counter, which goes up at every opening
and down at every closing bracket, never falls below zero and ends at zero.  The counter is the
one that the scanners of `HintCheck.Text.Brackets` keep, without the repair of a closing bracket
that has no partner.

Main definitions:

* `HintCheck.Text.depthStep?`, `HintCheck.Text.depthAfter?` — the counter, behind a character and
  behind a text;
* `HintCheck.Text.Balanced` — the balanced texts;
* `HintCheck.Text.TopFree` — a separator does not stand outside of brackets;
* `HintCheck.Text.IsSeparator` — the characters that texts can be split at.

Main results:

* `HintCheck.Text.depthStep?_cases` — what a step of the counter can do;
* `HintCheck.Text.depthAfter?_add` — from a higher start, the counter stays higher by as much;
* `HintCheck.Text.Balanced.append`, `HintCheck.Text.Balanced.enclosed` — balanced texts are closed
  under putting them side by side and into brackets;
* `HintCheck.Text.TopFree.append`, `HintCheck.Text.TopFree.enclosed` — so are those without a
  separator at depth zero.
-/

import HintCheck.Proofs.Text.Trim
import HintCheck.Text.Brackets

set_option relaxedAutoImplicit false
set_option autoImplicit false

namespace HintCheck

namespace Text

/-! ### The classes of characters -/

theorem isOpen_eq_false_of_isClose {c : Char} (h : isClose c = true) : isOpen c = false := by
  simp only [isClose, Bool.or_eq_true, beq_iff_eq] at h
  rcases h with ((rfl | rfl) | rfl) | rfl <;> decide

theorem isQuote_eq_false_of_isOpen {c : Char} (h : isOpen c = true) : isQuote c = false := by
  simp only [isOpen, Bool.or_eq_true, beq_iff_eq] at h
  rcases h with ((rfl | rfl) | rfl) | rfl <;> decide

theorem isQuote_eq_false_of_isClose {c : Char} (h : isClose c = true) : isQuote c = false := by
  simp only [isClose, Bool.or_eq_true, beq_iff_eq] at h
  rcases h with ((rfl | rfl) | rfl) | rfl <;> decide

theorem isBlank_eq_false_of_isOpen {c : Char} (h : isOpen c = true) : isBlank c = false := by
  simp only [isOpen, Bool.or_eq_true, beq_iff_eq] at h
  rcases h with ((rfl | rfl) | rfl) | rfl <;> decide

theorem isBlank_eq_false_of_isClose {c : Char} (h : isClose c = true) : isBlank c = false := by
  simp only [isClose, Bool.or_eq_true, beq_iff_eq] at h
  rcases h with ((rfl | rfl) | rfl) | rfl <;> decide

theorem isBlank_eq_false_of_isQuote {c : Char} (h : isQuote c = true) : isBlank c = false := by
  simp only [isQuote, Bool.or_eq_true, beq_iff_eq] at h
  rcases h with rfl | rfl <;> decide

/-- A character that is neither a bracket nor a quotation mark. -/
structure IsPlain (c : Char) : Prop where
  isQuote : isQuote c = false
  isOpen : isOpen c = false
  isClose : isClose c = false

theorem isPlain_of_isBlank {c : Char} (h : isBlank c = true) : IsPlain c where
  isQuote := Bool.eq_false_iff.2 fun hq => by simp [isBlank_eq_false_of_isQuote hq] at h
  isOpen := Bool.eq_false_iff.2 fun ho => by simp [isBlank_eq_false_of_isOpen ho] at h
  isClose := Bool.eq_false_iff.2 fun hc => by simp [isBlank_eq_false_of_isClose hc] at h

/-- A character that a text can be split at: no bracket, no quotation mark and no blank. -/
structure IsSeparator (c : Char) : Prop extends IsPlain c where
  isBlank : isBlank c = false

theorem isSeparator_bar : IsSeparator '|' := ⟨⟨by decide, by decide, by decide⟩, by decide⟩

theorem isSeparator_comma : IsSeparator ',' := ⟨⟨by decide, by decide, by decide⟩, by decide⟩

/-! ### The counter -/

/-- The bracket depth behind a character; none when it is a quotation mark, or closes a bracket
that was not opened. -/
def depthStep? (depth : Nat) (c : Char) : Option Nat :=
  if isQuote c then none
  else if isOpen c then some (depth + 1)
  else if isClose c then
    match depth with
    | 0 => none
    | depth + 1 => some depth
  else some depth

/-- The bracket depth behind a text. -/
def depthAfter? (depth : Nat) (cs : Text) : Option Nat := cs.foldlM depthStep? depth

/-- What a step of the counter can do. -/
theorem depthStep?_cases {d e : Nat} {c : Char} (h : depthStep? d c = some e) :
    isQuote c = false ∧
      ((isOpen c = true ∧ e = d + 1) ∨
        (isOpen c = false ∧ isClose c = true ∧ d = e + 1) ∨
        (isOpen c = false ∧ isClose c = false ∧ e = d)) := by
  unfold depthStep? at h
  split at h
  · cases h
  · next hq =>
    refine ⟨by simpa using hq, ?_⟩
    split at h
    · next ho => exact Or.inl ⟨ho, by simpa using h.symm⟩
    · next ho =>
      have ho : isOpen c = false := by simpa using ho
      split at h
      · next hc =>
        split at h
        · cases h
        · exact Or.inr (Or.inl ⟨ho, hc, by simpa using h⟩)
      · next hc => exact Or.inr (Or.inr ⟨ho, by simpa using hc, by simpa using h.symm⟩)

theorem depthStep?_of_isPlain {c : Char} (h : IsPlain c) (d : Nat) : depthStep? d c = some d := by
  simp [depthStep?, h.isQuote, h.isOpen, h.isClose]

theorem depthStep?_of_isOpen {c : Char} (h : isOpen c = true) (d : Nat) :
    depthStep? d c = some (d + 1) := by
  simp [depthStep?, isQuote_eq_false_of_isOpen h, h]

theorem depthStep?_of_isClose {c : Char} (h : isClose c = true) (d : Nat) :
    depthStep? (d + 1) c = some d := by
  simp [depthStep?, isQuote_eq_false_of_isClose h, isOpen_eq_false_of_isClose h, h]

/-- From a higher start, the counter stays higher by as much. -/
theorem depthStep?_add {d e : Nat} {c : Char} (h : depthStep? d c = some e) (k : Nat) :
    depthStep? (d + k) c = some (e + k) := by
  obtain ⟨hq, ⟨ho, rfl⟩ | ⟨ho, hc, rfl⟩ | ⟨ho, hc, rfl⟩⟩ := depthStep?_cases h
  · rw [depthStep?_of_isOpen ho]
    congr 1
    omega
  · rw [Nat.add_right_comm, depthStep?_of_isClose hc]
  · exact depthStep?_of_isPlain ⟨hq, ho, hc⟩ _

@[simp] theorem depthAfter?_nil (d : Nat) : depthAfter? d [] = some d := rfl

theorem depthAfter?_cons (d : Nat) (c : Char) (cs : Text) :
    depthAfter? d (c :: cs) = (depthStep? d c).bind fun e => depthAfter? e cs := by
  simp [depthAfter?]

/-- A counter that runs through a text runs through its first character. -/
theorem depthAfter?_cons_eq_some {d e : Nat} {c : Char} {cs : Text} :
    depthAfter? d (c :: cs) = some e ↔
      ∃ d', depthStep? d c = some d' ∧ depthAfter? d' cs = some e := by
  rw [depthAfter?_cons, Option.bind_eq_some_iff]

theorem depthAfter?_append (d : Nat) (s t : Text) :
    depthAfter? d (s ++ t) = (depthAfter? d s).bind fun e => depthAfter? e t := by
  simp [depthAfter?, List.foldlM_append]

theorem depthAfter?_append_of_eq_some {d e : Nat} {s : Text} (h : depthAfter? d s = some e)
    (t : Text) : depthAfter? d (s ++ t) = depthAfter? e t := by
  rw [depthAfter?_append, h, Option.bind_some]

/-- The counter runs through every beginning of a text that it runs through. -/
theorem exists_depthAfter?_of_append {d e : Nat} {s t : Text}
    (h : depthAfter? d (s ++ t) = some e) : ∃ m, depthAfter? d s = some m := by
  rw [depthAfter?_append] at h
  obtain ⟨m, hm, _⟩ := Option.bind_eq_some_iff.1 h
  exact ⟨m, hm⟩

theorem depthAfter?_add {d e : Nat} {cs : Text} (h : depthAfter? d cs = some e) (k : Nat) :
    depthAfter? (d + k) cs = some (e + k) := by
  induction cs generalizing d with
  | nil =>
      simp only [depthAfter?_nil, Option.some.injEq] at h ⊢
      omega
  | cons c cs ih =>
      obtain ⟨d', hd, h⟩ := depthAfter?_cons_eq_some.1 h
      exact depthAfter?_cons_eq_some.2 ⟨d' + k, depthStep?_add hd k, ih h⟩

theorem depthAfter?_of_isPlain {cs : Text} (h : ∀ c ∈ cs, IsPlain c) (d : Nat) :
    depthAfter? d cs = some d := by
  induction cs with
  | nil => rfl
  | cons c cs ih =>
      rw [depthAfter?_cons, depthStep?_of_isPlain (h c (by simp)), Option.bind_some]
      exact ih fun c hc => h c (by simp [hc])

/-! ### Balanced texts -/

/-- A text without quotation marks whose brackets are all opened and closed. -/
def Balanced (cs : Text) : Prop := depthAfter? 0 cs = some 0

instance (cs : Text) : Decidable (Balanced cs) :=
  inferInstanceAs (Decidable (depthAfter? 0 cs = some 0))

theorem balanced_nil : Balanced [] := rfl

theorem balanced_of_isPlain {cs : Text} (h : ∀ c ∈ cs, IsPlain c) : Balanced cs :=
  depthAfter?_of_isPlain h 0

theorem balanced_of_allBlank {w : Text} (h : AllBlank w) : Balanced w :=
  balanced_of_isPlain fun c hc => isPlain_of_isBlank (h c hc)

theorem Balanced.append {s t : Text} (hs : Balanced s) (ht : Balanced t) : Balanced (s ++ t) := by
  rw [Balanced, depthAfter?_append_of_eq_some hs]
  exact ht

/-- A pair of brackets around a balanced text. -/
theorem Balanced.enclosed {s : Text} (hs : Balanced s) {o c : Char} (ho : isOpen o = true)
    (hc : isClose c = true) : Balanced (o :: (s ++ [c])) := by
  refine depthAfter?_cons_eq_some.2 ⟨1, depthStep?_of_isOpen ho 0, ?_⟩
  have h : depthAfter? (0 + 1) s = some (0 + 1) := depthAfter?_add hs 1
  rw [depthAfter?_append_of_eq_some h, depthAfter?_cons, depthStep?_of_isClose hc,
    Option.bind_some, depthAfter?_nil]

theorem balanced_intercalate {separator : Text} (hsep : Balanced separator) {ps : List Text}
    (h : ∀ p ∈ ps, Balanced p) : Balanced (separator.intercalate ps) := by
  induction ps with
  | nil => exact balanced_nil
  | cons p ps ih =>
      have hp : Balanced p := h p (by simp)
      have ih := ih fun q hq => h q (by simp [hq])
      cases ps with
      | nil => simpa using hp
      | cons q qs =>
          rw [List.intercalate_cons_cons]
          exact (hp.append hsep).append ih

/-! ### Separators inside brackets -/

/-- From a depth on, no separator of a text stands at depth zero. -/
def TopFreeFrom (separator : Char) (depth : Nat) (cs : Text) : Prop :=
  ∀ front back, cs = front ++ separator :: back → depthAfter? depth front ≠ some 0

/-- No separator of a text stands outside of brackets. -/
def TopFree (separator : Char) (cs : Text) : Prop := TopFreeFrom separator 0 cs

theorem topFree_of_not_mem {separator : Char} {cs : Text} (h : separator ∉ cs) :
    TopFree separator cs := by
  intro front back hcs
  exact absurd (by rw [hcs]; simp) h

theorem topFreeFrom_nil (separator : Char) (d : Nat) : TopFreeFrom separator d [] := by
  intro front back h
  simp at h

/-- The condition on a text is one on its first character, and one on what follows it. -/
theorem topFreeFrom_cons {separator : Char} {d : Nat} {c : Char} {cs : Text} :
    TopFreeFrom separator d (c :: cs) ↔
      ¬(c = separator ∧ d = 0) ∧
        ∀ e, depthStep? d c = some e → TopFreeFrom separator e cs := by
  constructor
  · intro h
    refine ⟨?_, ?_⟩
    · rintro ⟨rfl, rfl⟩
      exact h [] cs rfl rfl
    · intro e hd front back hcs hzero
      refine h (c :: front) back (by rw [hcs]; rfl) ?_
      exact depthAfter?_cons_eq_some.2 ⟨e, hd, hzero⟩
  · rintro ⟨hfirst, hrest⟩ front back h hzero
    cases front with
    | nil =>
        simp only [List.nil_append, List.cons.injEq] at h
        exact hfirst ⟨h.1, by simpa using hzero⟩
    | cons a front =>
        simp only [List.cons_append, List.cons.injEq] at h
        obtain ⟨rfl, h⟩ := h
        obtain ⟨e, hd, hzero⟩ := depthAfter?_cons_eq_some.1 hzero
        exact hrest e hd front back h hzero

/-- Whether a separator stands at depth zero can be decided from left to right. -/
def decideTopFreeFrom (separator : Char) :
    (d : Nat) → (cs : Text) → Decidable (TopFreeFrom separator d cs)
  | d, [] => isTrue (topFreeFrom_nil separator d)
  | d, c :: cs =>
    match h : depthStep? d c with
    | none => decidable_of_iff (¬(c = separator ∧ d = 0)) (by simp [topFreeFrom_cons, h])
    | some e =>
      have := decideTopFreeFrom separator e cs
      decidable_of_iff (¬(c = separator ∧ d = 0) ∧ TopFreeFrom separator e cs)
        (by simp [topFreeFrom_cons, h])

instance (separator : Char) (cs : Text) : Decidable (TopFree separator cs) :=
  decideTopFreeFrom separator 0 cs

theorem TopFree.append {separator : Char} {s t : Text} (hb : Balanced s)
    (hs : TopFree separator s) (ht : TopFree separator t) : TopFree separator (s ++ t) := by
  intro front back h
  rcases List.append_eq_append_iff.1 h.symm with ⟨z, hz, hback⟩ | ⟨z, hz, hback⟩
  · -- the separator stands in the first text, or is the first character of the second one
    cases z with
    | nil =>
        rw [List.append_nil] at hz
        rw [List.nil_append] at hback
        subst hz
        exact absurd (ht [] back hback.symm) (by simp)
    | cons c z =>
        simp only [List.cons_append, List.cons.injEq] at hback
        obtain ⟨rfl, _⟩ := hback
        exact hs front z hz
  · -- the separator stands in the second text, which begins at depth zero
    rw [hz, depthAfter?_append_of_eq_some hb]
    exact ht z back hback

/-- Inside a pair of brackets nothing stands at depth zero. -/
theorem TopFree.enclosed {separator o : Char} (hsep : IsPlain separator) {s : Text}
    (hs : Balanced s) (ho : isOpen o = true) (c : Char) :
    TopFree separator (o :: (s ++ [c])) := by
  intro front back h
  cases front with
  | nil =>
      simp only [List.nil_append, List.cons.injEq] at h
      rw [h.1, hsep.isOpen] at ho
      cases ho
  | cons a front =>
      simp only [List.cons_append, List.cons.injEq] at h
      obtain ⟨rfl, h⟩ := h
      -- the separator is not the closing bracket, so it stands in the inside
      obtain ⟨z, rfl⟩ : ∃ z, s = front ++ z := by
        rcases List.append_eq_append_iff.1 h.symm with ⟨z, hz, _⟩ | ⟨z, hz, hback⟩
        · exact ⟨z, hz⟩
        · cases z with
          | nil => exact ⟨[], by simpa using hz.symm⟩
          | cons b z =>
              have hlen := congrArg List.length hback
              simp at hlen
      obtain ⟨m, hm⟩ := exists_depthAfter?_of_append hs
      have hm : depthAfter? (0 + 1) front = some (m + 1) := depthAfter?_add hm 1
      rw [depthAfter?_cons, depthStep?_of_isOpen ho, Option.bind_some, hm]
      simp

theorem topFree_intercalate {separator : Char} {between : Text} (hb : Balanced between)
    (hsep : TopFree separator between) {ps : List Text}
    (h : ∀ p ∈ ps, Balanced p ∧ TopFree separator p) :
    TopFree separator (between.intercalate ps) := by
  induction ps with
  | nil => exact topFree_of_not_mem (by simp)
  | cons p ps ih =>
      obtain ⟨hbal, hfree⟩ := h p (by simp)
      have ih := ih fun q hq => h q (by simp [hq])
      cases ps with
      | nil => simpa using hfree
      | cons q qs =>
          rw [List.intercalate_cons_cons]
          exact TopFree.append (hbal.append hb) (TopFree.append hbal hfree hsep) ih

end Text

end HintCheck
