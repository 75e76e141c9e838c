/-
**Words with spaces between them.**

A line is put together from parts that are trimmed, with a space between them; an empty part leaves
no trace.  The parts are found again at the spaces, and only the last one decides how the line ends.

Main definitions:

* `HintCheck.Text.Tight` — a text that is not empty and neither begins nor ends with a blank;
* `HintCheck.Text.behind`, `HintCheck.Text.spaced` — parts with spaces between them;
* `HintCheck.Text.StaysOpen` — a text that does not end the comment it stands in.

Main results:

* `HintCheck.Text.spaced_cons` — the first part, and the parts behind it;
* `HintCheck.Text.trim_spaced` — trimmed parts make a trimmed line;
* `HintCheck.Text.staysOpen_spaced_cons` — **only the last part can end the comment.**
-/

import HintCheck.Proofs.Text.Trim

set_option relaxedAutoImplicit false
set_option autoImplicit false

namespace HintCheck

namespace Text

/-! ### Tight texts -/

/-- A text that is not empty and neither begins nor ends with a blank. -/
structure Tight (p : Text) : Prop where
  head : ∃ a, p.head? = some a ∧ isBlank a = false
  last : ∃ b, p.getLast? = some b ∧ isBlank b = false

theorem Tight.trim_eq {p : Text} (h : Tight p) : trim p = p := by
  obtain ⟨a, ha, hblank⟩ := h.head
  obtain ⟨b, hb, hblank'⟩ := h.last
  exact trim_eq_self ha hb hblank hblank'

/-- A text that does not end with a blank has nothing to trim at its end. -/
theorem trimEnd_of_last {p : Text} {b : Char} (h : p.getLast? = some b) (hb : isBlank b = false) :
    trimEnd p = p := by
  obtain ⟨front, rfl⟩ := List.getLast?_eq_some_iff.1 h
  exact trimEnd_append_singleton hb front

/-- What trimming its end leaves of a text does not end with a blank. -/
theorem isBlank_of_trimEnd_eq {p : Text} {b : Char} (h : trimEnd p = p)
    (hb : p.getLast? = some b) : isBlank b = false := by
  cases hblank : isBlank b with
  | false => rfl
  | true =>
      obtain ⟨front, rfl⟩ := List.getLast?_eq_some_iff.1 hb
      have hlen := congrArg List.length h
      rw [trimEnd_append_blank hblank] at hlen
      have hle : (trimEnd front).length ≤ front.length := length_dropEndWhile_le isBlank front
      simp at hlen
      omega

/-- The end of a text that does not end with a blank does not end with one. -/
theorem trimEnd_of_suffix {s p : Text} (h : s <:+ p) (hp : trimEnd p = p) : trimEnd s = s := by
  obtain ⟨front, rfl⟩ := h
  cases hlast : s.getLast? with
  | none =>
      rw [List.getLast?_eq_none_iff.1 hlast]
      rfl
  | some b =>
      have hb : (front ++ s).getLast? = some b := by rw [List.getLast?_append, hlast]; rfl
      exact trimEnd_of_last hlast (isBlank_of_trimEnd_eq hp hb)

theorem tight_of_trim_eq {p : Text} (hne : p ≠ []) (h : trim p = p) : Tight p where
  head := by
    obtain ⟨c, rest, rfl⟩ := List.exists_cons_of_ne_nil hne
    exact ⟨c, rfl, (exists_trimStart_of_trim_eq_cons h).1⟩
  last := by
    refine ⟨p.getLast hne, List.getLast?_eq_some_getLast hne, ?_⟩
    have htrimEnd : trimEnd p = p := by
      obtain ⟨c, rest, rfl⟩ := List.exists_cons_of_ne_nil hne
      have hc := (exists_trimStart_of_trim_eq_cons h).1
      rw [trim_cons hc] at h
      rw [trimEnd_cons hc, h]
    exact isBlank_of_trimEnd_eq htrimEnd (List.getLast?_eq_some_getLast hne)

theorem tight_of_forall {p : Text} (hne : p ≠ []) (h : ∀ c ∈ p, isBlank c = false) : Tight p where
  head := ⟨p.head hne, List.head?_eq_some_head hne, h _ (List.head_mem hne)⟩
  last := ⟨p.getLast hne, List.getLast?_eq_some_getLast hne, h _ (List.getLast_mem hne)⟩

/-! ### Cutting off the first word -/

/-- Behind a character that ends it, nothing is added to the first word. -/
theorem cut_append_cons {p : Char → Bool} {c : Char} (hc : p c = false) (s t : Text) :
    (s ++ c :: t).takeWhile p = s.takeWhile p ∧
      (s ++ c :: t).dropWhile p = s.dropWhile p ++ c :: t := by
  induction s with
  | nil => simp [hc]
  | cons a s ih => by_cases ha : p a = true <;> simp [ha, ih]

/-! ### Parts with spaces between them -/

/-- A text behind a space, where there is one. -/
def behind (s : Text) : Text := if s.isEmpty then [] else ' ' :: s

/-- Parts with spaces between them, less the empty ones. -/
def spaced (parts : List Text) : Text := join " " (parts.filter (!·.isEmpty))

@[simp] theorem behind_nil : behind [] = [] := rfl

theorem behind_of_ne_nil {s : Text} (h : s ≠ []) : behind s = ' ' :: s := by
  rw [behind, if_neg (by simpa using h)]

/-- Behind a space, nothing is added to the first word. -/
theorem cut_append_behind {p : Char → Bool} (hp : p ' ' = false) (s t : Text) :
    (s ++ behind t).takeWhile p = s.takeWhile p ∧
      (s ++ behind t).dropWhile p = s.dropWhile p ++ behind t := by
  cases t with
  | nil => simp
  | cons c cs =>
      rw [behind_of_ne_nil (by simp)]
      exact cut_append_cons hp s (c :: cs)

theorem mem_behind {c : Char} {s : Text} (h : c ∈ behind s) : c = ' ' ∨ c ∈ s := by
  cases s with
  | nil => simp at h
  | cons d ds =>
      rw [behind_of_ne_nil (by simp)] at h
      exact List.mem_cons.1 h

@[simp] theorem spaced_nil : spaced [] = [] := rfl

@[simp] theorem spaced_nil_cons (ps : List Text) : spaced ([] :: ps) = spaced ps := rfl

theorem spaced_cons {p : Text} (hp : p ≠ []) (ps : List Text) :
    spaced (p :: ps) = p ++ behind (spaced ps) := by
  have hfilter : (p :: ps).filter (!·.isEmpty) = p :: ps.filter (!·.isEmpty) :=
    List.filter_cons_of_pos (by simpa using hp)
  rw [spaced, spaced, hfilter]
  cases hps : ps.filter (!·.isEmpty) with
  | nil => simp [join]
  | cons q qs =>
      have hq : q ≠ [] := by
        have hmem : q ∈ ps.filter (!·.isEmpty) := by simp [hps]
        simpa using (List.mem_filter.1 hmem).2
      have hjoin : join " " (q :: qs) ≠ [] := by
        cases qs with
        | nil => simpa [join] using hq
        | cons r rs => simp [join, List.intercalate_cons_cons]
      rw [behind_of_ne_nil hjoin]
      simp [join, List.intercalate_cons_cons]

theorem behind_append {s : Text} (h : s ≠ []) (t : Text) : behind (s ++ t) = behind s ++ t := by
  rw [behind_of_ne_nil h, behind_of_ne_nil (by simp [h]), List.cons_append]

@[simp] theorem spaced_singleton (p : Text) : spaced [p] = p := by
  cases p with
  | nil => rfl
  | cons c cs => rw [spaced_cons (by simp), spaced_nil, behind_nil, List.append_nil]

/-- Parts with a space in front of each. -/
theorem flatMap_behind (ps : List Text) : ps.flatMap behind = behind (spaced ps) := by
  induction ps with
  | nil => rfl
  | cons p ps ih =>
      cases p with
      | nil => simpa using ih
      | cons c cs =>
          rw [List.flatMap_cons, ih, spaced_cons (by simp), behind_append (by simp)]

theorem mem_spaced {c : Char} {ps : List Text} (h : c ∈ spaced ps) :
    c = ' ' ∨ ∃ p ∈ ps, c ∈ p := by
  induction ps with
  | nil => simp at h
  | cons p ps ih =>
      have htail : c ∈ spaced ps → c = ' ' ∨ ∃ q ∈ p :: ps, c ∈ q := by
        intro hmem
        rcases ih hmem with h | ⟨q, hq, hmem⟩
        · exact Or.inl h
        · exact Or.inr ⟨q, List.mem_cons_of_mem _ hq, hmem⟩
      cases p with
      | nil => exact htail h
      | cons d ds =>
          rw [spaced_cons (by simp)] at h
          rcases List.mem_append.1 h with h | h
          · exact Or.inr ⟨_, List.mem_cons_self, h⟩
          · rcases mem_behind h with h | h
            · exact Or.inl h
            · exact htail h

/-! ### Trimmed texts -/

theorem trim_behind {s : Text} (hs : trim s = s) : trim (behind s) = s := by
  cases s with
  | nil => rfl
  | cons c cs => rw [behind_of_ne_nil (by simp), trim_blank_cons (by decide), hs]

/-- A trimmed text behind another one is trimmed with it. -/
theorem trim_append_behind {p s : Text} (hp : Tight p) (hs : trim s = s) :
    trim (p ++ behind s) = p ++ behind s := by
  obtain ⟨a, ha, hblank⟩ := hp.head
  have hhead : (p ++ behind s).head? = some a := by simp [List.head?_append, ha]
  cases s with
  | nil => simpa using hp.trim_eq
  | cons c cs =>
      obtain ⟨b, hb, hblank'⟩ := (tight_of_trim_eq (by simp) hs).last
      refine trim_eq_self hhead ?_ hblank hblank' (b := b)
      rw [behind_of_ne_nil (by simp), List.getLast?_append, List.getLast?_cons, hb]
      rfl

theorem trim_spaced {ps : List Text} (h : ∀ p ∈ ps, trim p = p) : trim (spaced ps) = spaced ps := by
  induction ps with
  | nil => rfl
  | cons p ps ih =>
      have ih := ih fun q hq => h q (List.mem_cons_of_mem _ hq)
      cases p with
      | nil => exact ih
      | cons c cs =>
          rw [spaced_cons (by simp)]
          exact trim_append_behind (tight_of_trim_eq (by simp) (h _ List.mem_cons_self)) ih

/-- A text without blanks at its end is trimmed together with the parts behind it. -/
theorem trim_append_behind_spaced {p : Text} (hp : trimEnd p = p) {ps : List Text}
    (hps : ∀ q ∈ ps, trim q = q) : trim (p ++ behind (spaced ps)) = spaced (trim p :: ps) := by
  obtain ⟨w, hw, hsplit⟩ := rest_append_trimStart p
  have htrim : trim p = trimStart p := trimEnd_of_suffix ⟨w, hsplit.symm⟩ hp
  have hmiddle : trim (p ++ behind (spaced ps)) = trim (trim p ++ behind (spaced ps)) := by
    rw [htrim]
    conv => lhs; rw [hsplit, List.append_assoc, trim_of_allBlank_append hw]
  rw [hmiddle]
  by_cases hnil : trim p = []
  · rw [hnil, List.nil_append, trim_behind (trim_spaced hps), spaced_nil_cons]
  · rw [trim_append_behind (tight_of_trim_eq hnil (trim_trim p)) (trim_spaced hps),
      spaced_cons hnil]

theorem trim?_trim (cs : Text) : trim? (trim cs) = trim? cs := by
  rw [trim?, trim?, trim_trim]

/-- A text of which trimming leaves everything is found again, or there was none. -/
theorem trim?_getD {d : Option Text} (h : ∀ s ∈ d, s ≠ [] ∧ trim s = s) :
    trim? (d.getD []) = d := by
  cases d with
  | none => rfl
  | some s =>
      obtain ⟨hne, hs⟩ := h s rfl
      obtain ⟨c, rest, rfl⟩ := List.exists_cons_of_ne_nil hne
      rw [Option.getD_some, trim?, hs]

/-! ### The end of the comment -/

/-- A text that does not end the comment it stands in. -/
def StaysOpen (s : Text) : Prop := ¬"*/".toList <:+ s

instance (s : Text) : Decidable (StaysOpen s) :=
  inferInstanceAs (Decidable (¬"*/".toList <:+ s))

/-- What ends a comment is not cut by another character. -/
theorem StaysOpen.append_cons {s : Text} (h : StaysOpen s) {c : Char} (hstar : c ≠ '*')
    (hslash : c ≠ '/') (p : Text) : StaysOpen (p ++ c :: s) := by
  intro hend
  rcases List.suffix_or_suffix_of_suffix hend (List.suffix_append p (c :: s)) with hin | hout
  · rcases List.suffix_cons_iff.1 hin with heq | hin
    · exact hstar (List.cons.inj heq).1.symm
    · exact h hin
  · have hc : c ∈ "*/".toList := hout.subset List.mem_cons_self
    simp [hstar, hslash] at hc

theorem staysOpen_of_not_mem {s : Text} (h : '/' ∉ s) : StaysOpen s :=
  fun hend => h (hend.subset (by decide))

theorem staysOpen_append_behind {p s : Text} (hs : StaysOpen s) (hp : s = [] → StaysOpen p) :
    StaysOpen (p ++ behind s) := by
  cases s with
  | nil => simpa using hp rfl
  | cons c cs =>
      rw [behind_of_ne_nil (by simp)]
      exact hs.append_cons (by decide) (by decide) p

/-- Only the last part can end the comment. -/
theorem staysOpen_spaced_cons {p : Text} {ps : List Text} (hps : StaysOpen (spaced ps))
    (hp : spaced ps = [] → StaysOpen p) : StaysOpen (spaced (p :: ps)) := by
  cases p with
  | nil => exact hps
  | cons c cs =>
      rw [spaced_cons (by simp)]
      exact staysOpen_append_behind hps hp

end Text

end HintCheck
