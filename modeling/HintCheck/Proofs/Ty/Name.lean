/-
**Names in type expressions.**

A built-in type, a class and a container are all written as a word: letters, digits, underscores,
separators and hyphens.  No character of a word means anything to the scanners, so a word is read
as a whole, and what follows it decides how.

Main definitions:

* `HintCheck.Ty.IsWord` — the words that a type can begin with;
* `HintCheck.Ty.IsClassName` — the plain names of classes, which have no hyphens;
* `HintCheck.Ty.isMadeOf` — the check that decides both;
* `HintCheck.Ty.containers` — the containers whose last parameter is the type of their values.

Main results:

* `HintCheck.Ty.isPlain_of_isWordChar` — the characters of a word are neither brackets, quotation
  marks nor blanks;
* `HintCheck.Ty.isWord_of_lower` — the case of the letters does not decide what is a word;
* `HintCheck.Ty.keyword_text` — every built-in type is read from its own keyword;
* `HintCheck.Ty.keyword_eq_none_of_mem` — a keyword has no bracket;
* `HintCheck.Ty.isArrayLike_of_keyword`, `HintCheck.Ty.not_isArrayLike_of_keyword` — the keywords of
  arrays are containers, and a container has a keyword.
-/

import HintCheck.Proofs.Text.Balanced
import HintCheck.Ty.Read

set_option relaxedAutoImplicit false
set_option autoImplicit false

namespace HintCheck

namespace Ty

open Text

/-! ### Characters -/

/-- A character that the name of a class can be made of. -/
def isNameChar (c : Char) : Bool := c.isAlphanum || c == '_' || c == '\\'

/-- A character that a word can be made of. -/
def isWordChar (c : Char) : Bool := isNameChar c || c == '-'

/-- The code points of letters and digits. -/
theorem isAlphanum_eq_true_iff {c : Char} :
    c.isAlphanum = true ↔ ((65 ≤ c.toNat ∧ c.toNat ≤ 90) ∨ (97 ≤ c.toNat ∧ c.toNat ≤ 122)) ∨
      (48 ≤ c.toNat ∧ c.toNat ≤ 57) := by
  change (decide (65 ≤ c.val ∧ c.val ≤ 90) || (decide (97 ≤ c.val) && decide (c.val ≤ 122)) ||
    (decide (48 ≤ c.val) && decide (c.val ≤ 57))) = true ↔ _
  simp only [Bool.or_eq_true, Bool.and_eq_true, decide_eq_true_eq, UInt32.le_iff_toNat_le]
  exact Iff.rfl

theorem toNat_lt_of_isWordChar {c : Char} (h : isWordChar c = true) : c.toNat < 128 := by
  simp only [isWordChar, isNameChar, Bool.or_eq_true, beq_iff_eq, isAlphanum_eq_true_iff] at h
  rcases h with ((h | rfl) | rfl) | rfl
  · omega
  · decide
  · decide
  · decide

/-- What holds of each of the first characters holds of every character of a word. -/
theorem forall_isWordChar {P : Char → Bool}
    (h : ∀ n : Fin 128, isWordChar (Char.ofNat n) = true → P (Char.ofNat n) = true) {c : Char}
    (hc : isWordChar c = true) : P c = true := by
  have h := h ⟨c.toNat, toNat_lt_of_isWordChar hc⟩
  simp only [Char.ofNat_toNat] at h
  exact h hc

/-- The characters of a word are neither brackets nor quotation marks. -/
theorem isPlain_of_isWordChar {c : Char} (h : isWordChar c = true) : IsPlain c where
  isQuote := by
    simpa using forall_isWordChar (P := fun c => !isQuote c) (by decide +kernel) h
  isOpen := by
    simpa using forall_isWordChar (P := fun c => !isOpen c) (by decide +kernel) h
  isClose := by
    simpa using forall_isWordChar (P := fun c => !isClose c) (by decide +kernel) h

theorem isBlank_of_isWordChar {c : Char} (h : isWordChar c = true) : isBlank c = false := by
  simpa using forall_isWordChar (P := fun c => !isBlank c) (by decide +kernel) h

theorem opensPart_iff {c : Char} : opensPart c = true ↔ c = '<' ∨ c = '{' ∨ c = '(' := by
  simp only [opensPart, Bool.or_eq_true, beq_iff_eq, or_assoc]

/-- A character that opens a part behind a name is a bracket. -/
theorem opensPart_of_isPlain {c : Char} (h : IsPlain c) : opensPart c = false := by
  have ho := h.isOpen
  simp only [isOpen, Bool.or_eq_false_iff] at ho
  simp [opensPart, ho.1.1.1, ho.1.1.2, ho.1.2]

/-- Making a letter small changes nothing but capitals. -/
theorem toLower_eq_self_or_isUpper (c : Char) : c.toLower = c ∨ c.isUpper = true := by
  cases h : c.isUpper with
  | true => exact Or.inr rfl
  | false => exact Or.inl (toLower_of_not_isUpper h)

theorem isWordChar_of_isUpper {c : Char} (h : c.isUpper = true) : isWordChar c = true := by
  have halphanum : c.isAlphanum = true := by
    change (c.isUpper || c.isLower || c.isDigit) = true
    rw [h, Bool.true_or, Bool.true_or]
  simp [isWordChar, isNameChar, halphanum]

/-! ### Words -/

/-- A character that a number can begin with. -/
def beginsNumber (c : Char) : Bool := c.isDigit || c == '-'

/-- A word that a type can begin with.  A digit or a hyphen in front would make it a number. -/
structure IsWord (w : Text) : Prop where
  ne_nil : w ≠ []
  isWordChar : ∀ c ∈ w, isWordChar c = true
  first : ∀ c ∈ w.head?, beginsNumber c = false

/-- A plain name of a class: letters, digits, underscores and separators, with no digit in
front. -/
structure IsClassName (name : Text) : Prop where
  ne_nil : name ≠ []
  isNameChar : ∀ c ∈ name, isNameChar c = true
  first : ∀ c ∈ name.head?, c.isDigit = false

/-- Whether a text is made of characters of one class, with none of another class in front. -/
def isMadeOf (part bad : Char → Bool) (w : Text) : Bool :=
  !w.isEmpty && w.all part && w.head?.all fun c => !bad c

theorem isMadeOf_iff {part bad : Char → Bool} {w : Text} :
    isMadeOf part bad w = true ↔
      w ≠ [] ∧ (∀ c ∈ w, part c = true) ∧ ∀ c ∈ w.head?, bad c = false := by
  cases w with
  | nil => simp [isMadeOf]
  | cons c cs => simp [isMadeOf, and_comm]

instance (w : Text) : Decidable (IsWord w) :=
  decidable_of_iff (isMadeOf isWordChar beginsNumber w = true)
    (isMadeOf_iff.trans ⟨fun ⟨hne, hall, hfirst⟩ => ⟨hne, hall, hfirst⟩,
      fun h => ⟨h.ne_nil, h.isWordChar, h.first⟩⟩)

instance (name : Text) : Decidable (IsClassName name) :=
  decidable_of_iff (isMadeOf isNameChar Char.isDigit name = true)
    (isMadeOf_iff.trans ⟨fun ⟨hne, hall, hfirst⟩ => ⟨hne, hall, hfirst⟩,
      fun h => ⟨h.ne_nil, h.isNameChar, h.first⟩⟩)

theorem IsClassName.isWord {name : Text} (h : IsClassName name) : IsWord name where
  ne_nil := h.ne_nil
  isWordChar c hc := by simp [Ty.isWordChar, h.isNameChar c hc]
  first c hc := by
    have hname := h.isNameChar c (List.mem_of_mem_head? hc)
    have hne : c ≠ '-' := by
      rintro rfl
      exact absurd hname (by decide)
    simp [beginsNumber, h.first c hc, hne]

/-- A word has a first character. -/
theorem IsWord.exists_cons {w : Text} (h : IsWord w) :
    ∃ c rest, w = c :: rest ∧ Ty.isWordChar c = true ∧ beginsNumber c = false := by
  cases w with
  | nil => exact absurd rfl h.ne_nil
  | cons c rest => exact ⟨c, rest, rfl, h.isWordChar c (by simp), h.first c rfl⟩

/-- A word has a last character. -/
theorem IsWord.exists_append {w : Text} (h : IsWord w) :
    ∃ front c, w = front ++ [c] ∧ Ty.isWordChar c = true := by
  refine ⟨w.dropLast, w.getLast h.ne_nil, (List.dropLast_concat_getLast h.ne_nil).symm, ?_⟩
  exact h.isWordChar _ (List.getLast_mem h.ne_nil)

theorem IsWord.isPlain {w : Text} (h : IsWord w) : ∀ c ∈ w, IsPlain c :=
  fun c hc => isPlain_of_isWordChar (h.isWordChar c hc)

theorem IsWord.balanced {w : Text} (h : IsWord w) : Balanced w := balanced_of_isPlain h.isPlain

/-- A word has no separator. -/
theorem IsWord.topFree {w : Text} (h : IsWord w) {separator : Char}
    (hsep : Ty.isWordChar separator = false) : TopFree separator w := by
  refine topFree_of_not_mem fun hmem => ?_
  rw [h.isWordChar separator hmem] at hsep
  cases hsep

theorem IsWord.trim_eq {w : Text} (h : IsWord w) : trim w = w := by
  obtain ⟨a, rest, hfirst, ha, _⟩ := h.exists_cons
  obtain ⟨front, b, hlast, hb⟩ := h.exists_append
  exact trim_eq_self (by rw [hfirst]; rfl) (by rw [hlast]; simp) (isBlank_of_isWordChar ha)
    (isBlank_of_isWordChar hb)

/-- The case of the letters does not decide what is a word. -/
theorem isWord_of_lower {w : Text} (h : IsWord (lower w)) : IsWord w where
  ne_nil := by
    rintro rfl
    exact h.ne_nil rfl
  isWordChar c hc := by
    rcases toLower_eq_self_or_isUpper c with hl | hu
    · rw [← hl]
      exact h.isWordChar _ (List.mem_map_of_mem hc)
    · exact isWordChar_of_isUpper hu
  first c hc := by
    rcases toLower_eq_self_or_isUpper c with hl | hu
    · rw [← hl]
      refine h.first _ ?_
      rw [lower, List.head?_map, hc]
      rfl
    · have hword := isWordChar_of_isUpper hu
      have himp := forall_isWordChar (P := fun c => !c.isUpper || !beginsNumber c)
        (by decide +kernel) hword
      simpa [hu] using himp

/-! ### Keywords -/

/-- The keywords of the built-in types are words. -/
theorem isWord_text (a : Atom) : IsWord a.text := by
  cases a <;> decide

/-- Every built-in type is read from its own keyword. -/
theorem keyword_text (a : Atom) : keyword a.text = some (atom a) := by
  cases a <;> rfl

/-- The row of the table that a keyword is found in. -/
theorem exists_row_of_keyword {name : Text} {t : Ty} (h : keyword name = some t) :
    ∃ row ∈ keywords, row.2 = t ∧ lower name ∈ row.1.map String.toList := by
  obtain ⟨row, hrow, ht⟩ := Option.map_eq_some_iff.1 h
  have hfound := List.find?_some hrow
  simp only [List.any_eq_true, beq_iff_eq] at hfound
  exact ⟨row, List.mem_of_find?_eq_some hrow, ht, List.mem_map.2 hfound⟩

/-- A keyword has no bracket. -/
theorem keyword_eq_none_of_mem {name : Text} {bracket : Char} (hb : opensPart bracket = true)
    (h : bracket ∈ name) : keyword name = none := by
  cases hkey : keyword name with
  | none => rfl
  | some t =>
      have hall : (keywords.all fun row => (row.1.map String.toList).all fun k =>
          k.all fun c => !opensPart c) = true := by decide +kernel
      simp only [List.all_eq_true, Bool.not_eq_true'] at hall
      have hlower : bracket.toLower = bracket := by
        rcases opensPart_iff.1 hb with rfl | rfl | rfl <;> decide
      obtain ⟨row, hrow, _, hname⟩ := exists_row_of_keyword hkey
      have hmem : bracket ∈ lower name := hlower ▸ List.mem_map_of_mem h
      rw [hall row hrow _ hname bracket hmem] at hb
      cases hb

/-! ### Containers -/

/-- The containers whose last parameter is the type of their values. -/
def containers : List Text :=
  ["array", "iterable", "list", "non-empty-array", "non-empty-list"].map String.toList

theorem isArrayLike_iff {name : Text} : isArrayLike name = true ↔ lower name ∈ containers := by
  simp only [isArrayLike, containers, List.any_eq_true, List.mem_map, beq_iff_eq]

theorem isWord_of_mem_containers {name : Text} (h : lower name ∈ containers) : IsWord name := by
  refine isWord_of_lower ?_
  have hall : ∀ k ∈ containers, IsWord k := by decide
  exact hall _ h

/-- The keywords of arrays are all among the containers. -/
theorem isArrayLike_of_keyword {name : Text} (h : keyword name = some (atom .array)) :
    isArrayLike name = true := by
  have hall : (keywords.all fun row => row.2.kind != .atom .array ||
      (row.1.map String.toList).all (containers.contains ·)) = true := by decide +kernel
  simp only [List.all_eq_true, Bool.or_eq_true, bne_iff_ne, List.contains_iff_mem] at hall
  obtain ⟨row, hrow, ht, hname⟩ := exists_row_of_keyword h
  have hkind : row.2.kind = .atom .array := congrArg kind ht
  exact isArrayLike_iff.2 ((hall row hrow).resolve_left (not_not_intro hkind) _ hname)

/-- A container has a keyword, so a name without one is no container. -/
theorem not_isArrayLike_of_keyword {name : Text} (h : keyword name = none) :
    isArrayLike name = false := by
  cases ha : isArrayLike name with
  | false => rfl
  | true =>
      have hall : ∀ k ∈ containers, keyword k ≠ none := by decide
      have hk := hall _ (isArrayLike_iff.1 ha)
      rw [keyword_lower] at hk
      exact absurd h hk

end Ty

end HintCheck
