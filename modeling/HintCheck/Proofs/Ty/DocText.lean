/-
**Reading back what documentation spells.**

A type that is spelled for documentation and read again comes back, up to the spelling of null:
documentation has no short form, so every `?T` comes back as the union of `T` and null.

Main definitions:

* `HintCheck.Ty.PlainNames` — the names in a type stand for themselves, and a class that has
  parameters has at least one;
* `HintCheck.Ty.IsSpelling` — what every spelling of a type satisfies.

Main results:

* `HintCheck.Ty.isSpelling_docText`, `HintCheck.Ty.topFree_docText` — spellings are balanced, and
  separators occur only where the spelled type has them;
* `HintCheck.Ty.read_docText_of_plainNames` — **a spelled type is read back**, with one spelling of
  null.
-/

import HintCheck.Ty.Print
import HintCheck.Proofs.Ty.Denull
import HintCheck.Proofs.Ty.Grammar

set_option relaxedAutoImplicit false
set_option autoImplicit false

namespace HintCheck

namespace Ty

open Text

/-! ### Names that stand for themselves -/

/-- A plain name of a class that is not a keyword. -/
structure IsPlainName (name : Text) : Prop extends IsClassName name where
  keyword : Ty.keyword name = none

/-- At every depth, names are plain and classes with parameters have at least one. -/
inductive PlainNames : Ty → Prop where
  | atom (a : Atom) : PlainNames (.atom a)
  | named {n : Text} (hn : IsPlainName n) : PlainNames (.named n)
  | array {e : Ty} (d : Nat) (he : PlainNames e) : PlainNames (.array e d)
  | generic {n : Text} {ps : List Ty} (hn : IsPlainName n) (hne : ps ≠ [])
      (hps : ∀ p ∈ ps, PlainNames p) : PlainNames (.generic n ps)
  | union {ms : List Ty} (hms : ∀ m ∈ ms, PlainNames m) : PlainNames (.union ms)
  | optional {t : Ty} (ht : PlainNames t) : PlainNames (.optional t)
  | undefined : PlainNames .undefined

/-! ### Spellings -/

/-- A balanced text without a question mark, and without a comma outside of brackets. -/
structure IsSpelling (cs : Text) : Prop where
  balanced : Balanced cs
  topFree : TopFree ',' cs
  not_mem : '?' ∉ cs

theorem isSpelling_nil : IsSpelling [] where
  balanced := balanced_nil
  topFree := topFree_of_not_mem (by simp)
  not_mem := by simp

theorem IsWord.isSpelling {w : Text} (hw : IsWord w) : IsSpelling w where
  balanced := hw.balanced
  topFree := hw.topFree (by decide)
  not_mem h := absurd (hw.isWordChar _ h) (by decide)

theorem IsSpelling.append {s t : Text} (hs : IsSpelling s) (ht : IsSpelling t) :
    IsSpelling (s ++ t) where
  balanced := hs.balanced.append ht.balanced
  topFree := hs.topFree.append hs.balanced ht.topFree
  not_mem h := (List.mem_append.1 h).elim hs.not_mem ht.not_mem

theorem IsSpelling.enclosed {s : Text} (hs : IsSpelling s) : IsSpelling ('(' :: (s ++ [')'])) where
  balanced := hs.balanced.enclosed (by decide) (by decide)
  topFree := TopFree.enclosed isSeparator_comma.toIsPlain hs.balanced (by decide) ')'
  not_mem := by simp [hs.not_mem]

/-- A sign that stands neither in the parts of a text nor between them does not stand in it. -/
theorem not_mem_intercalate {c : Char} {between : Text} (hb : c ∉ between) {ps : List Text}
    (h : ∀ p ∈ ps, c ∉ p) : c ∉ between.intercalate ps := by
  induction ps with
  | nil => simp
  | cons p ps ih =>
      have hp := h p (by simp)
      have ih := ih fun q hq => h q (by simp [hq])
      cases ps with
      | nil => simpa using hp
      | cons q qs =>
          rw [List.intercalate_cons_cons]
          simp [hp, hb, ih]

/-- What holds of the characters of the parts and of those between them holds of all of them. -/
theorem forall_mem_intercalate {P : Char → Prop} {between : Text} (hb : ∀ c ∈ between, P c)
    {ps : List Text} (h : ∀ p ∈ ps, ∀ c ∈ p, P c) : ∀ c ∈ between.intercalate ps, P c :=
  fun c hc => Classical.byContradiction fun hbad =>
    not_mem_intercalate (fun hmem => hbad (hb c hmem)) (fun p hp hmem => hbad (h p hp c hmem)) hc

theorem isSpelling_join_bar {ps : List Text} (h : ∀ p ∈ ps, IsSpelling p) :
    IsSpelling (Text.join "|" ps) where
  balanced := balanced_intercalate (by decide) fun p hp => (h p hp).balanced
  topFree := topFree_intercalate (by decide) (by decide) fun p hp =>
    ⟨(h p hp).balanced, (h p hp).topFree⟩
  not_mem := not_mem_intercalate (by decide) fun p hp => (h p hp).not_mem

theorem isSpelling_paramText {name : Text} (hname : IsWord name) {params : List Text}
    (h : ∀ p ∈ params, IsSpelling p) : IsSpelling (paramText name params) where
  balanced := balanced_paramText hname fun p hp => (h p hp).balanced
  topFree := topFree_paramText isSeparator_comma.toIsPlain (by decide) hname fun p hp =>
    (h p hp).balanced
  not_mem := by
    have hin : '?' ∉ ", ".toList.intercalate params :=
      not_mem_intercalate (by decide) fun p hp => (h p hp).not_mem
    simp only [paramText, List.mem_append, List.mem_cons, not_or]
    exact ⟨hname.isSpelling.not_mem, by decide, hin, by decide, by simp⟩

theorem brackets_succ (d : Nat) : brackets (d + 1) = brackets d ++ "[]".toList := by
  simp [brackets, List.replicate_succ']

/-- Array brackets are a spelling, with no bar in it. -/
theorem isSpelling_brackets (d : Nat) : IsSpelling (brackets d) ∧ TopFree '|' (brackets d) := by
  induction d with
  | zero => exact ⟨isSpelling_nil, by decide⟩
  | succ d ih =>
      have hpair : IsSpelling "[]".toList := ⟨by decide, by decide, by decide⟩
      rw [brackets_succ]
      exact ⟨ih.1.append hpair, ih.2.append ih.1.balanced (by decide)⟩

theorem docText_generic (n : Text) (ps : List Ty) :
    docText (generic n ps) = paramText n (ps.map docText) := by
  simp [docText, docTexts_eq, paramText]

theorem docText_union (ms : List Ty) : docText (union ms) = Text.join "|" (ms.map docText) := by
  rw [docText, docTexts_eq]

theorem isSpelling_elementText (e : Ty) {s : Text} (hs : IsSpelling s) :
    IsSpelling (elementText e s) := by
  unfold elementText
  split
  · simpa using hs.enclosed
  · simpa using hs.enclosed
  · exact hs

/-- The spelling of a type is balanced, and its commas stand inside of brackets. -/
theorem isSpelling_docText {t : Ty} (h : PlainNames t) : IsSpelling (docText t) := by
  induction h with
  | atom a => exact (isWord_text a).isSpelling
  | named hn => exact hn.isWord.isSpelling
  | array d _ ih => exact (isSpelling_elementText _ ih).append (isSpelling_brackets d).1
  | @generic n ps hn _ _ ih =>
      rw [docText_generic]
      refine isSpelling_paramText hn.isWord ?_
      simpa using ih
  | @union ms _ ih =>
      rw [docText_union]
      refine isSpelling_join_bar ?_
      simpa using ih
  | optional _ ih => exact ih.append ⟨by decide, by decide, by decide⟩
  | undefined => exact isSpelling_nil

theorem topFree_elementText {e : Ty} {s : Text} (hs : Balanced s)
    (h : IsMember e → TopFree '|' s) (hnil : e = undefined → s = []) :
    TopFree '|' (elementText e s) := by
  have henclosed : TopFree '|' ('(' :: (s ++ [')'])) :=
    TopFree.enclosed isSeparator_bar.toIsPlain hs (by decide) ')'
  cases e with
  | union ms => simpa [elementText] using henclosed
  | optional t => simpa [elementText] using henclosed
  | undefined =>
      rw [hnil rfl]
      exact topFree_of_not_mem (by simp [elementText])
  | _ => exact h trivial

/-- A bar in the spelling of a member of a union stands inside of brackets. -/
theorem topFree_docText {t : Ty} (h : PlainNames t) (hm : IsMember t) :
    TopFree '|' (docText t) := by
  induction h with
  | atom a => exact (isWord_text a).topFree (by decide)
  | named hn => exact hn.isWord.topFree (by decide)
  | array d he ih =>
      have hs := isSpelling_docText he
      refine TopFree.append (isSpelling_elementText _ hs).balanced ?_ (isSpelling_brackets d).2
      exact topFree_elementText hs.balanced ih (by rintro rfl; rfl)
  | @generic n ps hn _ hps _ =>
      rw [docText_generic]
      refine topFree_paramText isSeparator_bar.toIsPlain (by decide) hn.isWord ?_
      simpa using fun p hp => (isSpelling_docText (hps p hp)).balanced
  | union => exact absurd hm (by simp [IsMember])
  | optional => exact absurd hm (by simp [IsMember])
  | undefined => exact absurd hm (by simp [IsMember])

/-! ### Reading a spelling -/

theorem isDefined_arrayOf {e : Ty} (he : e.isDefined = true) (d : Nat) :
    (arrayOf e d).isDefined = true := by
  rcases Nat.eq_zero_or_pos d with rfl | hd
  · exact he
  · obtain ⟨e', d', h⟩ := exists_arrayOf_eq hd e
    rw [h]
    rfl

/-- Brackets behind a spelling make it the element of an array. -/
theorem read_append_brackets {s : Text} (hs : IsSpelling s) (hfree : TopFree '|' s)
    (hd : (read s).isDefined = true) (d : Nat) :
    read (s ++ brackets d) = arrayOf (read s) d := by
  induction d with
  | zero => simp [brackets]
  | succ d ih =>
      have hspelling := hs.append (isSpelling_brackets d).1
      have hbars := hfree.append hs.balanced (isSpelling_brackets d).2
      have hq : (trim (s ++ brackets d)).head? ≠ some '?' := by
        intro h
        exact hspelling.not_mem ((mem_trim (by decide) _).1 (List.mem_of_mem_head? h))
      rw [brackets_succ, ← List.append_assoc,
        read_brackets hspelling.balanced hbars hq (by rw [ih]; exact isDefined_arrayOf hd d), ih,
        arrayOf_arrayOf]

theorem read_elementText (e : Ty) {s : Text} (hs : Balanced s) :
    read (elementText e s) = read s := by
  have h := read_enclosed hs
  unfold elementText
  split
  · simpa using h
  · simpa using h
  · rfl

/-- Texts with bars between them are read one by one. -/
theorem read_join_bar {ps : List Text} (hne : ps ≠ [])
    (h : ∀ p ∈ ps, Balanced p ∧ TopFree '|' p) :
    read (Text.join "|" ps) = ofAlternatives (ps.map read) := by
  have hsplit : splitTop '|' (Text.join "|" ps) = ps.map trim :=
    splitTop_intercalate isSeparator_bar (w := []) allBlank_nil hne fun p hp =>
      ⟨sealed_of_balanced (h p hp).1, freeOutside_of_topFree (h p hp).1 (h p hp).2⟩
  rw [read_eq_splitTop, hsplit, List.map_map]
  congr 1
  refine List.map_congr_left fun p hp => ?_
  rw [Function.comp_apply, readMember_congr (trim_trim p), read_of_topFree (h p hp).1 (h p hp).2]

theorem ofAlternatives_of_two_le {ts : List Ty} (h : 2 ≤ ts.length) :
    ofAlternatives ts = unionOf ts := by
  match ts with
  | [] => simp at h
  | [t] => simp at h
  | t :: t' :: ts => rfl

/-- **A spelled type is read back**, with one spelling of null. -/
theorem read_docText_of_plainNames {t : Ty} (h : PlainNames t) (hn : NormalOrAbsent t) :
    read (docText t) = denull t := by
  induction h with
  | atom a =>
      rw [docText, read_word (isWord_text a), keyword_text]
      rfl
  | named hname =>
      rw [docText, read_word hname.isWord, hname.keyword]
      rfl
  | @array e d he ih =>
      obtain ⟨_, _, hne⟩ := hn rfl
      have ih := ih hne.normalOrAbsent
      have hs := isSpelling_docText he
      have hread := read_elementText e hs.balanced
      rw [docText, read_append_brackets (isSpelling_elementText e hs) ?_ ?_, hread, ih, denull]
      · exact topFree_elementText hs.balanced (topFree_docText he) (by rintro rfl; rfl)
      · rw [hread, ih]
        exact isDefined_denull hne
  | @generic n ps hname hne hps ih =>
      have hparams := (hn rfl).params
      have hspelled : ∀ s ∈ ps.map docText, Balanced s ∧ TopFree ',' s := by
        simpa using fun p hp =>
          ⟨(isSpelling_docText (hps p hp)).balanced, (isSpelling_docText (hps p hp)).topFree⟩
      rw [docText_generic, read_class_paramText hname.toIsClassName hname.keyword
        (by simpa using hne) hspelled, denull, denullAll_eq, List.map_map]
      congr 1
      exact List.map_congr_left fun p hp => ih p hp (hparams p hp)
  | @union ms hms ih =>
      obtain ⟨hlen, hmember, _, hnormal⟩ := (hn rfl).members
      have hne : ms ≠ [] := by
        rintro rfl
        simp at hlen
      have hmap : (ms.map docText).map read = ms.map denull := by
        rw [List.map_map]
        exact List.map_congr_left fun m hm => ih m hm (hnormal m hm).normalOrAbsent
      have hspelled : ∀ s ∈ ms.map docText, Balanced s ∧ TopFree '|' s := by
        simpa using fun m hm =>
          ⟨(isSpelling_docText (hms m hm)).balanced, topFree_docText (hms m hm) (hmember m hm)⟩
      rw [docText_union, read_join_bar (by simpa using hne) hspelled, hmap,
        ofAlternatives_of_two_le (by simpa using hlen), denull, denullAll_eq]
  | @optional t ht ih =>
      have hnull : read "null".toList = atom .null := read_word (isWord_text .null)
      have hbar := read_bar (isSpelling_docText ht).balanced allBlank_nil allBlank_nil "null".toList
      rw [ih (hn rfl).2.normalOrAbsent, hnull] at hbar
      rw [denull, ← hbar]
      simp [docText]
  | undefined =>
      have habsent : readMember [] = undefined := readMember_of_trim_nil rfl
      rw [docText, read_of_topFree balanced_nil (topFree_of_not_mem (by simp)), habsent]
      rfl

/-- **What documentation spells is read back**, with one spelling of null, and unchanged where
there is no `?T`. -/
theorem docText_roundTrip {t : Ty} (hn : NormalOrAbsent t) (h : PlainNames t) :
    read (docText t) = denull t ∧ (OptionalFree t → read (docText t) = t) := by
  refine ⟨read_docText_of_plainNames h hn, ?_⟩
  intro hfree
  rw [read_docText_of_plainNames h hn, denull_of_optionalFree hfree hn]

/-- An array of a union stays what it is; inside a parameter, `?T` becomes a union. -/
theorem docText_roundTrip_of_nested :
    read "(int|A)[][]".toList = array (union [atom .int, named "A".toList]) 2 ∧
    read "bool|Map<string, B\\C|null>".toList =
      union [atom .bool,
        generic "Map".toList [atom .string, union [named "B\\C".toList, atom .null]]] := by
  have hA : IsPlainName "A".toList := ⟨by decide, by decide⟩
  have hMap : IsPlainName "Map".toList := ⟨by decide, by decide⟩
  have hC : IsPlainName "B\\C".toList := ⟨by decide, by decide⟩
  refine ⟨?_, ?_⟩
  · have hn : Normal (array (union [atom .int, named "A".toList]) 2) := by
      simp [Normal, NormalAll, IsElement, IsMember, same]
    refine (docText_roundTrip hn.normalOrAbsent ?_).2 ?_
    · exact .array 2 (.union (List.forall_mem_cons.2
        ⟨.atom _, List.forall_mem_cons.2 ⟨.named hA, by simp⟩⟩))
    · exact .array 2 (.union (List.forall_mem_cons.2
        ⟨.atom _, List.forall_mem_cons.2 ⟨.named _, by simp⟩⟩))
  · have hn : Normal (union [atom .bool,
        generic "Map".toList [atom .string, optional (named "B\\C".toList)]]) := by
      simp [Normal, NormalAll, NormalParams, IsMember, IsOptionable, same]
    have hparams : ∀ p ∈ [atom .string, optional (named "B\\C".toList)], PlainNames p :=
      List.forall_mem_cons.2 ⟨.atom _, List.forall_mem_cons.2 ⟨.optional (.named hC), by simp⟩⟩
    refine (docText_roundTrip hn.normalOrAbsent (.union (List.forall_mem_cons.2 ⟨.atom _, ?_⟩))).1
    exact List.forall_mem_cons.2 ⟨.generic hMap (by simp) hparams, by simp⟩

end Ty

end HintCheck
