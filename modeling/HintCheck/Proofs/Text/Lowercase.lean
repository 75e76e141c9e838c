/-
**Texts in small letters.**

The lower case of a text is looked up in a table of capitals.  No small letter that the table leads
to is a capital of it, so that a text in lower case stays as it is when its lower case is taken once
more.  Characters outside of the table stay as they are, at the beginning and at the end of a text
as well.

Main definitions:

* `HintCheck.Text.mask` — code points as the bits of one number;
* `HintCheck.Text.capitalCodes`, `HintCheck.Text.smallCodes` — the two sides of the table;
* `HintCheck.Text.IsSmall` — the characters that stay in lower case;
* `HintCheck.Text.Becomes` — a character stands for another one in lower case.

Main results:

* `HintCheck.Text.lowerChar_cases` — a character stays, or it goes from one side of the table to the
  other;
* `HintCheck.Text.exists_becomes_of_mem_lowercase` — what a text in lower case consists of;
* `HintCheck.Text.lowercase_of_isSmall` — **and they stay**;
* `HintCheck.Text.head?_lowercase_cons`, `HintCheck.Text.getLast?_lowercase_append` — the ends of a
  text.
-/

import HintCheck.Text.Basic
import HintCheck.Text.Lowercase

set_option relaxedAutoImplicit false
set_option autoImplicit false

namespace HintCheck

namespace Text

/-! ### Code points as bits -/

/-- Code points as the bits of one number, so that two lists of them are compared at once. -/
def mask (codes : List Nat) : Nat := codes.foldr (fun n m => 1 <<< n ||| m) 0

theorem testBit_mask {codes : List Nat} {n : Nat} :
    (mask codes).testBit n = true ↔ n ∈ codes := by
  induction codes with
  | nil => simp [mask]
  | cons a codes ih =>
      have hmask : mask (a :: codes) = 1 <<< a ||| mask codes := rfl
      rw [hmask, Nat.one_shiftLeft, Nat.testBit_or, Bool.or_eq_true, Nat.testBit_two_pow, ih,
        decide_eq_true_eq, List.mem_cons, eq_comm]

/-- Lists whose masks have no bit in common have no code point in common. -/
theorem not_mem_of_land_mask {codes others : List Nat} (h : mask codes &&& mask others = 0)
    {n : Nat} (hn : n ∈ codes) : n ∉ others := by
  intro hother
  have hbit : (mask codes &&& mask others).testBit n = true := by
    rw [Nat.testBit_and, testBit_mask.2 hn, testBit_mask.2 hother, Bool.and_self]
  rw [h, Nat.zero_testBit] at hbit
  cases hbit

/-! ### The two sides of the table -/

/-- The code points of a run of capitals. -/
def runCodes (r : Nat × Nat × Nat × Int) : List Nat :=
  (List.range ((r.2.1 - r.1) / r.2.2.1 + 1)).map fun k => r.1 + k * r.2.2.1

/-- The runs of capitals, with the one inside ASCII. -/
def letterRuns : List (Nat × Nat × Nat × Int) := (0x41, 0x5A, 1, 32) :: capitalRuns

/-- The capitals, among them the dotted I, which is in no run. -/
def capitalCodes : List Nat := 0x130 :: letterRuns.flatMap runCodes

/-- The small letters that capitals become; the dot above the small i and the final small sigma come
from no run. -/
def smallCodes : List Nat :=
  0x307 :: 0x3C2 :: letterRuns.flatMap fun r => (runCodes r).map fun (n : Nat) =>
    (Char.ofNat ((n : Int) + r.2.2.2).toNat).toNat

theorem mem_runCodes {r : Nat × Nat × Nat × Int} {n : Nat} (hfirst : r.1 ≤ n) (hlast : n ≤ r.2.1)
    (hstep : (n - r.1) % r.2.2.1 = 0) : n ∈ runCodes r := by
  refine List.mem_map.2 ⟨(n - r.1) / r.2.2.1, List.mem_range.2 ?_, ?_⟩
  · have h : (n - r.1) / r.2.2.1 ≤ (r.2.1 - r.1) / r.2.2.1 :=
      Nat.div_le_div_right (Nat.sub_le_sub_right hlast _)
    omega
  · rw [Nat.div_mul_cancel (Nat.dvd_of_mod_eq_zero hstep)]
    omega

/-- No small letter is a capital. -/
theorem land_smallCodes : mask smallCodes &&& mask capitalCodes = 0 := by decide +kernel

/-- **A character stays, or it goes from one side of the table to the other.** -/
theorem lowerChar_cases (c : Char) :
    lowerChar c = c ∨ c.toNat ∈ capitalCodes ∧ (lowerChar c).toNat ∈ smallCodes := by
  -- a run that holds the character puts both it and its small letter into the table
  have hrun : ∀ r ∈ letterRuns, c.toNat ∈ runCodes r →
      lowerChar c = Char.ofNat ((c.toNat : Int) + r.2.2.2).toNat →
      c.toNat ∈ capitalCodes ∧ (lowerChar c).toNat ∈ smallCodes := by
    intro r hr hc hlower
    refine ⟨List.mem_cons_of_mem _ (List.mem_flatMap.2 ⟨r, hr, hc⟩), ?_⟩
    rw [hlower]
    exact List.mem_cons_of_mem _ (List.mem_cons_of_mem _
      (List.mem_flatMap.2 ⟨r, hr, List.mem_map.2 ⟨c.toNat, hc, rfl⟩⟩))
  by_cases hascii : c.toNat < 128
  · cases hupper : c.isUpper with
    | false => exact .inl (by rw [lowerChar_of_lt hascii, toLower_of_not_isUpper hupper])
    | true =>
        refine .inr (hrun _ List.mem_cons_self ?_ ?_)
        · exact of_isUpper (P := fun c => c.toNat ∈ runCodes (0x41, 0x5A, 1, 32)) (by decide) hupper
        · rw [lowerChar_of_lt hascii]
          exact of_isUpper (P := fun c => c.toLower = Char.ofNat ((c.toNat : Int) + 32).toNat)
            (by decide) hupper
  · cases hfind : capitalRuns.find? fun r =>
        r.1 ≤ c.toNat && c.toNat ≤ r.2.1 && (c.toNat - r.1) % r.2.2.1 == 0 with
    | none => exact .inl (by simp only [lowerChar, hascii, if_false, hfind])
    | some r =>
        have hholds := List.find?_some hfind
        simp only [Bool.and_eq_true, decide_eq_true_eq, beq_iff_eq] at hholds
        refine .inr (hrun r (List.mem_cons_of_mem _ (List.mem_of_find?_eq_some hfind)) ?_ ?_)
        · exact mem_runCodes hholds.1.1 hholds.1.2 hholds.2
        · simp only [lowerChar, hascii, if_false, hfind]

/-! ### Small characters -/

/-- The characters that stay as they are in lower case, whatever stands around them. -/
structure IsSmall (c : Char) : Prop where
  lowerChar_eq : lowerChar c = c
  not_sigma : c ≠ 'Σ'
  not_dotted : c ≠ 'İ'

theorem isSmall_of_mem_smallCodes {c : Char} (h : c.toNat ∈ smallCodes) : IsSmall c := by
  have hcapital : c.toNat ∉ capitalCodes := not_mem_of_land_mask land_smallCodes h
  refine ⟨(lowerChar_cases c).resolve_right fun hmoved => hcapital hmoved.1, ?_, ?_⟩
  · rintro rfl
    exact hcapital (by decide +kernel)
  · rintro rfl
    exact hcapital (by decide +kernel)

/-- A character stands for another one in lower case: it is small, and either it is the same
character or the two are letters of the table. -/
structure Becomes (c x : Char) : Prop where
  isSmall : IsSmall x
  eq_or_mem : x = c ∨ c.toNat ∈ capitalCodes ∧ x.toNat ∈ smallCodes

theorem becomes_of_mem {c x : Char} (hc : c.toNat ∈ capitalCodes) (hx : x.toNat ∈ smallCodes) :
    Becomes c x := ⟨isSmall_of_mem_smallCodes hx, .inr ⟨hc, hx⟩⟩

theorem becomes_lowerChar {c : Char} (hsigma : c ≠ 'Σ') (hdotted : c ≠ 'İ') :
    Becomes c (lowerChar c) := by
  obtain hstays | ⟨hcapital, hsmall⟩ := lowerChar_cases c
  · rw [hstays]
    exact ⟨⟨hstays, hsigma, hdotted⟩, .inl rfl⟩
  · exact becomes_of_mem hcapital hsmall

/-! ### Texts -/

/-- Each character gives way to characters that stand for it. -/
theorem lowercaseAfter_cons (before : Text) (c : Char) (cs : Text) :
    ∃ small, small ≠ [] ∧ (∀ x ∈ small, Becomes c x) ∧
      lowercaseAfter before (c :: cs) = small ++ lowercaseAfter (c :: before) cs := by
  refine ⟨_, ?_, ?_, rfl⟩
  · split
    · simp
    · split <;> simp
  · intro x hx
    split at hx
    · next hsigma =>
      rw [beq_iff_eq.1 hsigma]
      have hx : x = 'ς' ∨ x = 'σ' := by
        split at hx
        · exact .inl (by simpa using hx)
        · exact .inr (by simpa using hx)
      rcases hx with rfl | rfl <;>
        exact becomes_of_mem (by decide +kernel) (by decide +kernel)
    · next hsigma =>
      split at hx
      · next hdotted =>
        rw [beq_iff_eq.1 hdotted]
        have hx : x = 'i' ∨ x = '\u0307' := by simpa using hx
        rcases hx with rfl | rfl <;>
          exact becomes_of_mem (by decide +kernel) (by decide +kernel)
      · next hdotted =>
        rw [List.mem_singleton.1 hx]
        exact becomes_lowerChar (by simpa using hsigma) (by simpa using hdotted)

theorem exists_becomes_of_mem_lowercaseAfter {x : Char} {before cs : Text}
    (h : x ∈ lowercaseAfter before cs) : ∃ c ∈ cs, Becomes c x := by
  induction cs generalizing before with
  | nil => cases h
  | cons c cs ih =>
      obtain ⟨small, -, hsmall, heq⟩ := lowercaseAfter_cons before c cs
      rw [heq, List.mem_append] at h
      obtain h | h := h
      · exact ⟨c, List.mem_cons_self, hsmall x h⟩
      · obtain ⟨a, ha, hx⟩ := ih h
        exact ⟨a, List.mem_cons_of_mem _ ha, hx⟩

/-- Every character in lower case stands for one of the text. -/
theorem exists_becomes_of_mem_lowercase {x : Char} {cs : Text} (h : x ∈ lowercase cs) :
    ∃ c ∈ cs, Becomes c x := exists_becomes_of_mem_lowercaseAfter h

theorem isSmall_of_mem_lowercase {x : Char} {cs : Text} (h : x ∈ lowercase cs) : IsSmall x := by
  obtain ⟨c, -, hx⟩ := exists_becomes_of_mem_lowercase h
  exact hx.isSmall

theorem lowercaseAfter_of_isSmall {cs : Text} (h : ∀ c ∈ cs, IsSmall c) (before : Text) :
    lowercaseAfter before cs = cs := by
  induction cs generalizing before with
  | nil => rfl
  | cons c cs ih =>
      have hc := h c List.mem_cons_self
      have ih := ih (fun x hx => h x (List.mem_cons_of_mem _ hx)) (c :: before)
      simp [lowercaseAfter, hc.lowerChar_eq, hc.not_sigma, hc.not_dotted, ih]

/-- **Small characters stay.** -/
theorem lowercase_of_isSmall {cs : Text} (h : ∀ c ∈ cs, IsSmall c) : lowercase cs = cs :=
  lowercaseAfter_of_isSmall h []

@[simp] theorem lowercase_nil : lowercase [] = [] := rfl

/-- The first character stands for the first one. -/
theorem head?_lowercase_cons (c : Char) (cs : Text) :
    ∃ x, (lowercase (c :: cs)).head? = some x ∧ Becomes c x := by
  obtain ⟨small, hne, hsmall, heq⟩ := lowercaseAfter_cons [] c cs
  obtain ⟨x, small, rfl⟩ := List.exists_cons_of_ne_nil hne
  exact ⟨x, by rw [lowercase, heq]; rfl, hsmall x List.mem_cons_self⟩

theorem getLast?_lowercaseAfter_append (before cs : Text) (c : Char) :
    ∃ x, (lowercaseAfter before (cs ++ [c])).getLast? = some x ∧ Becomes c x := by
  induction cs generalizing before with
  | nil =>
      obtain ⟨small, hne, hsmall, heq⟩ := lowercaseAfter_cons before c []
      refine ⟨small.getLast hne, ?_, hsmall _ (List.getLast_mem hne)⟩
      rw [List.nil_append, heq, lowercaseAfter, List.append_nil, List.getLast?_eq_some_getLast hne]
  | cons a cs ih =>
      obtain ⟨small, -, -, heq⟩ := lowercaseAfter_cons before a (cs ++ [c])
      obtain ⟨x, hx, hbecomes⟩ := ih (a :: before)
      refine ⟨x, ?_, hbecomes⟩
      rw [List.cons_append, heq, List.getLast?_append, hx, Option.some_or]

/-- The last character stands for the last one. -/
theorem getLast?_lowercase_append (cs : Text) (c : Char) :
    ∃ x, (lowercase (cs ++ [c])).getLast? = some x ∧ Becomes c x :=
  getLast?_lowercaseAfter_append [] cs c

end Text

end HintCheck
