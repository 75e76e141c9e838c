/-
**Reading follows the grammar.**

The reader of types works with scanners that look for brackets and separators in a whole text.
This module shows that it nevertheless reads an expression from its parts: on balanced texts, each
form of the grammar is read by reading the parts of that form and building a type from them.
Nothing is asked of what the parts mean.

Main definitions:

* `HintCheck.Ty.paramText` — a name with parameters in angle brackets.

Main results:

* `HintCheck.Ty.read_bar`, `HintCheck.Ty.read_enclosed`, `HintCheck.Ty.read_question`,
  `HintCheck.Ty.read_brackets`, `HintCheck.Ty.read_word`, `HintCheck.Ty.read_paramText`,
  `HintCheck.Ty.read_parens` — one equation for each form;
* `HintCheck.Ty.read_forms` — **reading is compositional over its grammar**.
-/

import HintCheck.Proofs.Text.Standing
import HintCheck.Proofs.Ty.Name
import HintCheck.Proofs.Ty.Union

set_option relaxedAutoImplicit false
set_option autoImplicit false

namespace HintCheck

namespace Ty

open Text

/-! ### Blanks around an expression -/

/-- An alternative is read from its trimmed text. -/
theorem readMember_congr {s t : Text} (h : trim s = trim t) : readMember s = readMember t := by
  cases hs : trim s with
  | nil => rw [readMember_of_trim_nil hs, readMember_of_trim_nil (h.symm.trans hs)]
  | cons c rest =>
      have ht : trim t = c :: rest := h.symm.trans hs
      by_cases hc : c = '?'
      · subst hc
        rw [readMember_of_trim_optional hs, readMember_of_trim_optional ht]
      · rw [readMember_of_trim hs hc, readMember_of_trim ht hc]

/-- An expression is read from its trimmed text. -/
theorem read_congr {s t : Text} (h : trim s = trim t) : read s = read t := by
  rw [read_eq, read_eq, h]

theorem read_eq_splitTop (cs : Text) :
    read cs = ofAlternatives ((splitTop '|' cs).map readMember) := by
  rw [read_eq, splitTop_trim isSeparator_bar.isBlank]

/-- Without a bar outside of brackets and quotations there is one alternative. -/
theorem read_of_freeOutside {cs : Text} (hs : Sealed cs) (hfree : FreeOutside (· == '|') cs) :
    read cs = readMember cs := by
  rw [read_eq_splitTop, splitTop_of_freeOutside hs hfree]
  exact readMember_congr (trim_trim cs)

theorem read_of_topFree {cs : Text} (hb : Balanced cs) (hfree : TopFree '|' cs) :
    read cs = readMember cs :=
  read_of_freeOutside (sealed_of_balanced hb) (freeOutside_of_topFree hb hfree)

/-! ### Alternatives -/

theorem unionOf_ofAlternatives {us : List Ty} (hne : us ≠ []) (ts vs : List Ty) :
    unionOf (ts ++ ofAlternatives us :: vs) = unionOf (ts ++ us ++ vs) := by
  match us with
  | [] => exact absurd rfl hne
  | [u] => simp [ofAlternatives]
  | u :: u' :: us => exact unionOf_append ts (u :: u' :: us) vs

theorem ofAlternatives_append {ts us : List Ty} (ht : ts ≠ []) (hu : us ≠ []) :
    ofAlternatives (ts ++ us) = unionOf [ofAlternatives ts, ofAlternatives us] := by
  have hlong : ofAlternatives (ts ++ us) = unionOf (ts ++ us) := by
    match ts, us with
    | [], _ => exact absurd rfl ht
    | _, [] => exact absurd rfl hu
    | [t], u :: us => rfl
    | t :: t' :: ts, u :: us => rfl
  have hfirst := unionOf_ofAlternatives ht [] [ofAlternatives us]
  have hsecond := unionOf_ofAlternatives hu ts []
  simp only [List.nil_append, List.append_nil] at hfirst hsecond
  rw [hlong, hfirst, hsecond]

/-- Two expressions with a bar between them are read as a union. -/
theorem read_bar {s w w' : Text} (hs : Balanced s) (hw : AllBlank w) (hw' : AllBlank w')
    (t : Text) : read (s ++ w ++ '|' :: (w' ++ t)) = unionOf [read s, read t] := by
  have hne : ∀ cs : Text, (splitTop '|' cs).map readMember ≠ [] := by
    intro cs
    simp [splitTop, splitTopFrom_ne_nil]
  rw [read_eq_splitTop, splitTop_append isSeparator_bar.toIsPlain
      (hs.append (balanced_of_allBlank hw)), splitTop_append_of_allBlank isSeparator_bar.isBlank hw,
    splitTop_of_allBlank_append isSeparator_bar.isBlank hw', List.map_append,
    ofAlternatives_append (hne s) (hne t), ← read_eq_splitTop, ← read_eq_splitTop]

/-! ### Array brackets -/

theorem leadingMarks_of_head {cs : Text} (h : cs.head? ≠ some ']') : leadingMarks cs = (cs, 0) := by
  rw [leadingMarks]
  rintro cs rfl
  exact h rfl

theorem leadingMarks_brackets (cs : Text) :
    leadingMarks (']' :: '[' :: cs) =
      ((leadingMarks (cs.dropWhile isBlank)).1, (leadingMarks (cs.dropWhile isBlank)).2 + 1) := by
  rw [leadingMarks]

/-- A text that does not end with a bracket has no array brackets at its end. -/
theorem arrayMarks_append_singleton {c : Char} (hc : c ≠ ']') (cs : Text) :
    arrayMarks (cs ++ [c]) = (cs ++ [c], 0) := by
  rw [arrayMarks, leadingMarks_of_head (by simpa using hc)]
  simp

/-- One pair of array brackets more. -/
theorem arrayMarks_append_brackets (cs : Text) :
    arrayMarks (cs ++ "[]".toList) =
      ((arrayMarks (trimEnd cs)).1, (arrayMarks (trimEnd cs)).2 + 1) := by
  have hrev : (cs ++ "[]".toList).reverse = ']' :: '[' :: cs.reverse := by simp
  rw [arrayMarks, hrev, leadingMarks_brackets]
  simp [arrayMarks, trimEnd, dropEndWhile]

/-- An alternative with neither a question mark in front nor a bracket at its end is read as it
is. -/
theorem readMember_eq_readBase {cs front : Text} {a z : Char} (htrim : trim cs = cs)
    (hfirst : cs.head? = some a) (ha : a ≠ '?') (hlast : cs = front ++ [z]) (hz : z ≠ ']') :
    readMember cs = readBase cs := by
  have hmarks : arrayMarks cs = (cs, 0) := by
    rw [hlast, arrayMarks_append_singleton hz]
  cases cs with
  | nil => cases hfirst
  | cons c rest =>
      cases hfirst
      rw [readMember_of_trim htrim ha, hmarks]
      simp only
      cases readBase (a :: rest) <;> rfl

/-- A pair of brackets behind an alternative adds an array level. -/
theorem readMember_brackets {s : Text} (hq : (trim s).head? ≠ some '?')
    (hd : (readMember s).isDefined = true) :
    readMember (s ++ "[]".toList) = arrayOf (readMember s) 1 := by
  cases hs : trim s with
  | nil =>
      rw [readMember_of_trim_nil hs] at hd
      cases hd
  | cons c rest =>
      have hc : c ≠ '?' := by
        rintro rfl
        exact hq (by rw [hs]; rfl)
      obtain ⟨hblank, tail, htail, hrest⟩ := exists_trimStart_of_trim_eq_cons hs
      have ht : trim (s ++ "[]".toList) = c :: (tail ++ "[]".toList) := by
        have h := trim_append_singleton (c := ']') (by decide) (s ++ ['['])
        rw [trimStart_append (by simp [htail]), htail] at h
        simpa using h
      have hmarks := arrayMarks_append_brackets (c :: tail)
      rw [trimEnd_cons hblank, ← hrest] at hmarks
      rw [readMember_of_trim hs hc] at hd ⊢
      rw [readMember_of_trim ht hc, ← List.cons_append, hmarks]
      -- both sides look at the same base; only the number of brackets differs
      generalize arrayMarks (c :: rest) = r at hd ⊢
      obtain ⟨base, n⟩ := r
      cases base with
      | nil => cases hd
      | cons b base =>
          simp only at hd ⊢
          cases he : readBase (b :: base) with
          | undefined =>
              rw [he] at hd
              cases hd
          | _ => exact (arrayOf_arrayOf _ n 1).symm

theorem read_brackets {s : Text} (hs : Balanced s) (hfree : TopFree '|' s)
    (hq : (trim s).head? ≠ some '?') (hd : (read s).isDefined = true) :
    read (s ++ "[]".toList) = arrayOf (read s) 1 := by
  have hfree' : TopFree '|' (s ++ "[]".toList) :=
    hfree.append hs (topFree_of_not_mem (by decide))
  rw [read_of_topFree hs hfree] at hd ⊢
  rw [read_of_topFree (hs.append (by decide)) hfree']
  exact readMember_brackets hq hd

/-! ### Parentheses and question marks -/

/-- Parentheses around an expression say nothing. -/
theorem read_enclosed {s : Text} (hs : Balanced s) : read ('(' :: (s ++ [')'])) = read s := by
  have hb : Balanced ('(' :: (s ++ [')'])) := hs.enclosed (by decide) (by decide)
  have hfree : TopFree '|' ('(' :: (s ++ [')'])) :=
    TopFree.enclosed isSeparator_bar.toIsPlain hs (by decide) ')'
  have htrim : trim ('(' :: (s ++ [')'])) = '(' :: (s ++ [')']) :=
    trim_eq_self rfl (List.getLast?_eq_some_iff.2 ⟨'(' :: s, rfl⟩) (by decide) (by decide)
  have hinside : parenthesized? ('(' :: (s ++ [')'])) = some s := by
    simp [parenthesized?, untilClosed_of_balanced hs (c := ')') (by decide) []]
  rw [read_of_topFree hb hfree,
    readMember_eq_readBase htrim rfl (by decide) (List.cons_append ..).symm (by decide),
    readBase_of_parenthesized hinside]

/-- A question mark in front of an alternative adds null. -/
theorem read_question {s : Text} (hs : Balanced s) (hfree : TopFree '|' s) :
    read ('?' :: s) = nullable (read s) := by
  have hmark : Balanced ['?'] := by decide
  have hfree' : TopFree '|' (['?'] ++ s) :=
    TopFree.append hmark (topFree_of_not_mem (by decide)) hfree
  have htrim : trim (['?'] ++ s) = '?' :: trimEnd s := trim_cons (by decide) s
  calc read ('?' :: s) = readMember (['?'] ++ s) := read_of_topFree (hmark.append hs) hfree'
    _ = nullable (readMember (trimEnd s)) := readMember_of_trim_optional htrim
    _ = nullable (read s) := by
      rw [readMember_congr (trim_trimEnd s), read_of_topFree hs hfree]

/-! ### Words -/

/-- What begins with a word is neither in parentheses nor quoted, and no number. -/
theorem readBase_of_word {w : Text} (hw : IsWord w) (rest : Text) :
    readBase (w ++ rest) = match named? (w ++ rest) with
      | some (name, '<', tail) => match untilClosed 0 tail with
        | some (inside, _) =>
          ofParams name ((splitTop ',' inside).map fun part => (part, read part))
        | none => named (w ++ rest)
      | some (name, '{', _) => ofShape (w ++ rest) name
      | some (name, _, _) => ofCallable name
      | none => (keyword (w ++ rest)).getD (named (w ++ rest)) := by
  obtain ⟨c, w, rfl, hc, hnumber⟩ := hw.exists_cons
  have hplain := isPlain_of_isWordChar hc
  have hparens : parenthesized? (c :: w ++ rest) = none := by
    unfold parenthesized?
    split
    · next h =>
      cases h
      cases hplain.isOpen
    · rfl
  have hquoted : isQuoted (c :: w ++ rest) = false := by
    simp [isQuoted, hplain.isQuote]
  have hnumeral : numeral? (c :: w ++ rest) = none := by
    simp only [beginsNumber, Bool.or_eq_false_iff, beq_eq_false_iff_ne, ne_eq] at hnumber
    simp [numeral?, hnumber.1, hnumber.2]
  rw [readBase_of_not_parenthesized hparens, hquoted, hnumeral]
  rfl

theorem takeWhile_opensPart_append {w : Text} (hw : IsWord w) (rest : Text) :
    (w ++ rest).takeWhile (!opensPart ·) = w ++ rest.takeWhile (!opensPart ·) :=
  List.takeWhile_append_of_pos fun c hc => by simp [opensPart_of_isPlain (hw.isPlain c hc)]

theorem dropWhile_opensPart_append {w : Text} (hw : IsWord w) (rest : Text) :
    (w ++ rest).dropWhile (!opensPart ·) = rest.dropWhile (!opensPart ·) :=
  List.dropWhile_append_of_pos fun c hc => by simp [opensPart_of_isPlain (hw.isPlain c hc)]

theorem named?_of_word {w : Text} (hw : IsWord w) : named? w = none := by
  have htake := takeWhile_opensPart_append hw []
  have hdrop := dropWhile_opensPart_append hw []
  simp only [List.append_nil, List.takeWhile_nil, List.dropWhile_nil] at htake hdrop
  rw [named?, htake, hdrop]
  cases trim? w <;> rfl

/-- A word with a bracket behind it is a name. -/
theorem named?_append {w : Text} (hw : IsWord w) {bracket : Char} (hb : opensPart bracket = true)
    (tail : Text) : named? (w ++ bracket :: tail) = some (w, bracket, tail) := by
  have htrim : trim? w = some w := by
    rw [trim?, hw.trim_eq]
    obtain ⟨c, rest, rfl, _⟩ := hw.exists_cons
    rfl
  rw [named?, takeWhile_opensPart_append hw, dropWhile_opensPart_append hw]
  simp [hb, htrim]

/-- A word with brackets behind it is one alternative, without array brackets. -/
theorem read_eq_readBase {name inside : Text} {a z : Char} (hname : IsWord name)
    (hinside : Sealed inside) (ha : isOpen a = true) (hz : isClose z = true) (hmark : z ≠ ']') :
    read (name ++ a :: (inside ++ [z])) = readBase (name ++ a :: (inside ++ [z])) := by
  have hsealed := sealed_of_balanced hname.balanced
  have hfree : FreeOutside (· == '|') name :=
    freeOutside_of_topFree hname.balanced (hname.topFree (by decide))
  have hopen : (a == '|') = false := by
    refine beq_eq_false_iff_ne.2 ?_
    rintro rfl
    exact absurd ha (by decide)
  obtain ⟨c, rest, hfirst, hc, _⟩ := hname.exists_cons
  have hcons : name ++ a :: (inside ++ [z]) = c :: (rest ++ a :: (inside ++ [z])) := by
    rw [hfirst]
    rfl
  have hlast : name ++ a :: (inside ++ [z]) = (name ++ a :: inside) ++ [z] := by simp
  have htrim : trim (name ++ a :: (inside ++ [z])) = name ++ a :: (inside ++ [z]) :=
    trim_eq_self (by rw [hcons]; rfl) (List.getLast?_eq_some_iff.2 ⟨_, hlast⟩)
      (isBlank_of_isWordChar hc) (isBlank_eq_false_of_isClose hz)
  have hq : c ≠ '?' := by
    rintro rfl
    exact absurd hc (by decide)
  rw [read_of_freeOutside (hsealed.append (hinside.between ha hz))
      (FreeOutside.append hsealed hfree (hinside.freeOutside_between ha hopen)),
    readMember_eq_readBase htrim (by rw [hcons]; rfl) hq hlast hmark]

/-- A word is a keyword or a class. -/
theorem read_word {w : Text} (hw : IsWord w) : read w = (keyword w).getD (named w) := by
  have hbase := readBase_of_word hw []
  rw [List.append_nil, named?_of_word hw] at hbase
  obtain ⟨a, rest, hfirst, ha, _⟩ := hw.exists_cons
  obtain ⟨front, z, hlast, hz⟩ := hw.exists_append
  have hq : a ≠ '?' := by
    rintro rfl
    exact absurd ha (by decide)
  have hbracket : z ≠ ']' := by
    rintro rfl
    exact absurd hz (by decide)
  rw [read_of_topFree hw.balanced (hw.topFree (by decide)),
    readMember_eq_readBase hw.trim_eq (by rw [hfirst]; rfl) hq hlast hbracket, hbase]

/-! ### Parameters -/

/-- A name with parameters in angle brackets. -/
def paramText (name : Text) (params : List Text) : Text :=
  name ++ '<' :: (Text.join ", " params ++ ['>'])

theorem balanced_join {params : List Text} (h : ∀ p ∈ params, Balanced p) :
    Balanced (Text.join ", " params) :=
  balanced_intercalate (by decide) h

theorem balanced_paramText {name : Text} (hname : IsWord name) {params : List Text}
    (h : ∀ p ∈ params, Balanced p) : Balanced (paramText name params) :=
  hname.balanced.append ((balanced_join h).enclosed (by decide) (by decide))

theorem topFree_paramText {separator : Char} (hsep : IsPlain separator)
    (hword : isWordChar separator = false) {name : Text} (hname : IsWord name)
    {params : List Text} (h : ∀ p ∈ params, Balanced p) :
    TopFree separator (paramText name params) :=
  (hname.topFree hword).append hname.balanced
    (TopFree.enclosed hsep (balanced_join h) (by decide) '>')

/-- A word with parameters is read from the word and the types of the parameters. -/
theorem read_paramText {name : Text} (hname : IsWord name) {params : List Text}
    (hne : params ≠ []) (h : ∀ p ∈ params, Balanced p ∧ TopFree ',' p) :
    read (paramText name params) = ofParams name (params.map fun p => (trim p, read p)) := by
  have hbal := balanced_join fun p hp => (h p hp).1
  have hparts : splitTop ',' (Text.join ", " params) = params.map trim :=
    splitTop_intercalate isSeparator_comma (w := [' ']) (by decide) hne fun p hp =>
      ⟨sealed_of_balanced (h p hp).1, freeOutside_of_topFree (h p hp).1 (h p hp).2⟩
  have hclosed := untilClosed_of_balanced hbal (c := '>') (by decide) []
  rw [paramText,
    read_eq_readBase hname (sealed_of_balanced hbal) (by decide) (by decide) (by decide),
    readBase_of_word hname, named?_append hname (by decide)]
  simp only [hclosed, hparts, List.map_map]
  congr 1
  refine List.map_congr_left fun p _ => ?_
  simp [read_congr (trim_trim p)]

/-- Parameters in parentheses are not looked at. -/
theorem read_parens {name inside : Text} (hname : IsWord name) (h : Balanced inside) :
    read (name ++ '(' :: (inside ++ [')'])) = ofCallable name := by
  rw [read_eq_readBase hname (sealed_of_balanced h) (by decide) (by decide) (by decide),
    readBase_of_word hname, named?_append hname (by decide)]
  rfl

/-- A class with parameters. -/
theorem read_class_paramText {name : Text} (hname : IsClassName name) (hkey : keyword name = none)
    {params : List Text} (hne : params ≠ []) (h : ∀ p ∈ params, Balanced p ∧ TopFree ',' p) :
    read (paramText name params) = generic name (params.map read) := by
  rw [read_paramText hname.isWord hne h, ofParams, hkey]
  simp [not_isArrayLike_of_keyword hkey, Function.comp_def]

/-- A container with parameters is an array of what its last parameter spells. -/
theorem read_container_paramText {name : Text} (hname : lower name ∈ containers)
    {params : List Text} {last : Text} (h : ∀ p ∈ params ++ [last], Balanced p ∧ TopFree ',' p) :
    read (paramText name (params ++ [last])) =
      arrayOf (if '<' ∈ last ∨ (read last).isDefined = false then atom .mixed else read last)
        1 := by
  have hmem : '<' ∈ trim last ↔ '<' ∈ last := mem_trim (by decide) last
  rw [read_paramText (isWord_of_mem_containers hname) (by simp) h, ofParams,
    if_pos (isArrayLike_iff.2 hname)]
  simp [valueType, hmem]

/-! ### The grammar -/

/-- **Reading is compositional over its grammar.**  Of the parts nothing is asked but that they are
balanced, and where a sign would cut them, that it stands inside of brackets. -/
theorem read_forms :
    (∀ s t w w' : Text, Balanced s → AllBlank w → AllBlank w' →
      read (s ++ w ++ '|' :: (w' ++ t)) = unionOf [read s, read t]) ∧
    (∀ s : Text, Balanced s → read ('(' :: (s ++ [')'])) = read s) ∧
    (∀ s : Text, Balanced s → TopFree '|' s → read ('?' :: s) = nullable (read s)) ∧
    (∀ s : Text, Balanced s → TopFree '|' s → (trim s).head? ≠ some '?' →
      (read s).isDefined = true → read (s ++ "[]".toList) = arrayOf (read s) 1) ∧
    (∀ (name : Text) (params : List Text), IsClassName name → keyword name = none →
      params ≠ [] → (∀ p ∈ params, Balanced p ∧ TopFree ',' p) →
      read (paramText name params) = generic name (params.map read)) ∧
    (∀ (name : Text) (params : List Text) (last : Text), lower name ∈ containers →
      (∀ p ∈ params ++ [last], Balanced p ∧ TopFree ',' p) →
      read (paramText name (params ++ [last])) =
        arrayOf (if '<' ∈ last ∨ (read last).isDefined = false then atom .mixed else read last)
          1) := by
  refine ⟨?_, ?_, ?_, ?_, ?_, ?_⟩
  · intro s t w w' hs hw hw'
    exact read_bar hs hw hw' t
  · intro s hs
    exact read_enclosed hs
  · intro s hs hfree
    exact read_question hs hfree
  · intro s hs hfree hq hd
    exact read_brackets hs hfree hq hd
  · intro name params hname hkey hne h
    exact read_class_paramText hname hkey hne h
  · intro name params last hname h
    exact read_container_paramText hname h

/-- One text of each form: bars in brackets, a namespace, and a map of lists. -/
theorem read_forms_of_texts :
    (Balanced "A<int|B>".toList ∧
      read "A<int|B> | float".toList =
        unionOf [read "A<int|B>".toList, read "float".toList]) ∧
    (Balanced "A|bool".toList ∧ read "(A|bool)".toList = read "A|bool".toList) ∧
    (TopFree '|' "(A|bool)".toList ∧
      read "?(A|bool)".toList = nullable (read "(A|bool)".toList)) ∧
    ((read "bool".toList).isDefined = true ∧
      read "bool[]".toList = arrayOf (read "bool".toList) 1) ∧
    (keyword "Set\\Map".toList = none ∧
      read "Set\\Map<int, A<B, C>>".toList =
        generic "Set\\Map".toList [read "int".toList, read "A<B, C>".toList]) ∧
    (lower "Array".toList ∈ containers ∧
      read "Array<int, A<B>>".toList = arrayOf (atom .mixed) 1) := by
  obtain ⟨hbar, henclosed, hquestion, hbrackets, hclass, hcontainer⟩ := read_forms
  have hdefined : (read Atom.bool.text).isDefined = true := by
    rw [read_word (isWord_text .bool), keyword_text]
    rfl
  refine ⟨⟨by decide, ?_⟩, ⟨by decide, ?_⟩, ⟨by decide, ?_⟩, ⟨hdefined, ?_⟩, ⟨by decide, ?_⟩,
    ⟨by decide, ?_⟩⟩
  · exact hbar "A<int|B>".toList "float".toList [' '] [' '] (by decide) (by decide) (by decide)
  · exact henclosed "A|bool".toList (by decide)
  · exact hquestion "(A|bool)".toList (by decide) (by decide)
  · exact hbrackets "bool".toList (by decide) (by decide) (by decide) hdefined
  · exact hclass "Set\\Map".toList ["int".toList, "A<B, C>".toList]
      (by decide) (by decide) (by decide) (by decide)
  · have h := hcontainer "Array".toList ["int".toList] "A<B>".toList (by decide) (by decide)
    rw [if_pos (Or.inl (by decide))] at h
    exact h

end Ty

end HintCheck
