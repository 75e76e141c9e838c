/-
**Tags on a line.**

A tag is written on one line: its sign and name, its type as documentation spells it, its variable
and its words, with a space between them.  Reading the line gives the tag back, up to the spelling
of null in its type.

Main definitions:

* `HintCheck.DocTag.text` — the line of a tag;
* `HintCheck.DocTag.Spellable` — the tags that can be written on a line;
* `HintCheck.DocTag.NameStaysOpen` — the tags whose variable does not end the comment.

Main results:

* `HintCheck.DocTag.typedContent_spaced`, `HintCheck.DocTag.targetOf?_variable` — the type and the
  variable are cut off;
* `HintCheck.DocTag.ofContent_parts` — **the parts of a tag are read back**;
* `HintCheck.DocBlock.readTag_text` — and so is its line.
-/

import HintCheck.Doc.Read
import HintCheck.Proofs.Doc.TypeText

set_option relaxedAutoImplicit false
set_option autoImplicit false

namespace HintCheck

namespace DocTag

open Text Ty

/-! ### What can be written on a line -/

/-- A type that a tag can carry: none, or a normal type with plain names. -/
structure IsTagType (t : Ty) : Prop where
  normal : NormalOrAbsent t
  names : PlainNames t

/-- The words of a tag: a trimmed text on one line that does not end the comment. -/
structure IsSentence (s : Text) : Prop where
  ne_nil : s ≠ []
  trim_eq : trim s = s
  newline : '\n' ∉ s
  open_end : StaysOpen s

instance (s : Text) : Decidable (IsSentence s) :=
  decidable_of_iff (s ≠ [] ∧ trim s = s ∧ '\n' ∉ s ∧ StaysOpen s)
    ⟨fun ⟨hne, htrim, hnewline, hopen⟩ => ⟨hne, htrim, hnewline, hopen⟩,
      fun h => ⟨h.ne_nil, h.trim_eq, h.newline, h.open_end⟩⟩

/-- The name of a variable, without the dollar sign. -/
structure IsVariableName (name : Text) : Prop where
  ne_nil : name ≠ []
  not_blank : ∀ c ∈ name, isBlank c = false
  dollar : name.head? ≠ some '$'

instance (name : Text) : Decidable (IsVariableName name) :=
  decidable_of_iff (name ≠ [] ∧ name.all (!isBlank ·) = true ∧ name.head? ≠ some '$')
    ⟨fun ⟨hne, hblank, hdollar⟩ => ⟨hne, by simpa using hblank, hdollar⟩,
      fun h => ⟨h.ne_nil, by simpa using h.not_blank, h.dollar⟩⟩

/-- The name of a tag without a type, in small letters. -/
structure IsTagName (name : Text) : Prop where
  ne_nil : name ≠ []
  isTagNameChar : ∀ c ∈ name, DocBlock.isTagNameChar c = true
  small : lowercase name = name
  untyped : name ∉ ["param", "return", "var"].map String.toList

instance (name : Text) : Decidable (IsTagName name) :=
  decidable_of_iff (name ≠ [] ∧ name.all DocBlock.isTagNameChar = true ∧ lowercase name = name ∧
      name ∉ ["param", "return", "var"].map String.toList)
    ⟨fun ⟨hne, hchars, hsmall, huntyped⟩ => ⟨hne, List.all_eq_true.1 hchars, hsmall, huntyped⟩,
      fun h => ⟨h.ne_nil, List.all_eq_true.2 h.isTagNameChar, h.small, h.untyped⟩⟩

/-- The tags that can be written on a line.  Without a type, only a variable tells the words of a
tag from its type; and without a variable, no word may look like one. -/
inductive Spellable : DocTag → Prop where
  | param {n : Nat} {t : Ty} {name : Text} {d : Option Text} (ht : IsTagType t)
      (hname : IsVariableName name) (hd : ∀ s ∈ d, IsSentence s) :
      Spellable (.param ⟨n, t⟩ name d)
  | result {n : Nat} {t : Ty} {d : Option Text} (ht : IsTagType t) (hd : ∀ s ∈ d, IsSentence s)
      (habsent : t.isDefined = false → d = none) : Spellable (.result ⟨n, t⟩ d)
  | named {n : Nat} {t : Ty} {name : Text} {d : Option Text} (ht : IsTagType t)
      (hname : IsVariableName name) (hd : ∀ s ∈ d, IsSentence s) :
      Spellable (.var ⟨n, t⟩ (some name) d)
  | unnamed {n : Nat} {t : Ty} {d : Option Text} (ht : IsTagType t)
      (hd : ∀ s ∈ d, IsSentence s) (habsent : t.isDefined = false → d = none)
      (hvariable : ∀ s ∈ d, startsWithVariable s = false) : Spellable (.var ⟨n, t⟩ none d)
  | other {n : Nat} {name : Text} {content : Option Text} (hname : IsTagName name)
      (hcontent : ∀ s ∈ content, IsSentence s) : Spellable (.other n name content)

/-- The parts of a tag behind its name. -/
def parts : DocTag → List Text
  | .param typing name d => [typing.ty.docText, '$' :: name, d.getD []]
  | .result typing d => [typing.ty.docText, d.getD []]
  | .var typing (some name) d => [typing.ty.docText, '$' :: name, d.getD []]
  | .var typing none d => [typing.ty.docText, d.getD []]
  | .other _ _ content => [content.getD []]

/-- The line of a tag, without the beginning of the line. -/
def text (t : DocTag) : Text := '@' :: (t.name ++ behind (spaced t.parts))

/-- The variable of a tag. -/
def target? : DocTag → Option Text
  | .param _ name _ => some name
  | .var _ name _ => name
  | _ => none

/-- The name of the variable of a tag does not end the comment, where it is the last word. -/
def NameStaysOpen (t : DocTag) : Prop :=
  t.description? = none → ∀ name ∈ t.target?, StaysOpen name

/-- A tag on another line. -/
def atLine (line : Nat) : DocTag → DocTag
  | .param typing name d => .param { typing with line } name d
  | .result typing d => .result { typing with line } d
  | .var typing name d => .var { typing with line } name d
  | .other _ name content => .other line name content

/-- A tag with another type. -/
def mapTy (f : Ty → Ty) : DocTag → DocTag
  | .param typing name d => .param { typing with ty := f typing.ty } name d
  | .result typing d => .result { typing with ty := f typing.ty } d
  | .var typing name d => .var { typing with ty := f typing.ty } name d
  | .other line name content => .other line name content

/-! ### The type -/

theorem eq_undefined {t : Ty} (h : t.isDefined = false) : t = .undefined := by
  cases t with
  | undefined => rfl
  | _ => cases h

theorem trim_docText {t : Ty} (ht : IsTagType t) : trim (docText t) = docText t := by
  cases h : t.isDefined with
  | true => exact (tight_docText ht.names (ht.normal h)).trim_eq
  | false =>
      rw [eq_undefined h]
      rfl

theorem read_docText {t : Ty} (ht : IsTagType t) : Ty.read (docText t) = denull t :=
  read_docText_of_plainNames ht.names ht.normal

/-- A type is cut off in front of other parts. -/
theorem splitType_spaced {t : Ty} (ht : IsTagType t) (ps : List Text)
    (hps : trim (spaced ps) = spaced ps) (habsent : t.isDefined = false → spaced ps = []) :
    splitType (spaced (docText t :: ps)) = (docText t, spaced ps) := by
  cases h : t.isDefined with
  | false =>
      have hnil : docText t = [] := by rw [eq_undefined h, docText]
      rw [hnil, spaced_nil_cons, habsent h]
      rfl
  | true =>
      obtain ⟨hend, hwords⟩ := splitType_docText ht.names (spaced ps)
      rw [spaced_cons (docText_ne_nil ht.names (ht.normal h))]
      cases hps' : spaced ps with
      | nil => simpa using hend
      | cons c cs =>
          rw [hps] at hwords
          rw [behind_of_ne_nil (by simp), ← hps', hwords]

/-- The first character tells a variable, with the signs in front of it, from anything else. -/
theorem startsWithVariable_cons {c : Char} (hdollar : c ≠ '$') (hand : c ≠ '&') (hdot : c ≠ '.')
    (cs : Text) : startsWithVariable (c :: cs) = false := by
  simp [startsWithVariable, List.isPrefixOf, hdollar.symm, hand.symm, hdot.symm]

/-- A type does not look like a variable. -/
theorem startsWithVariable_docText {t : Ty} (ht : IsTagType t) (h : t.isDefined = true)
    (rest : Text) : startsWithVariable (docText t ++ rest) = false := by
  obtain ⟨c, cs, hcs⟩ := List.exists_cons_of_ne_nil (docText_ne_nil ht.names (ht.normal h))
  have hc : isTypeChar c = true := isTypeChar_of_mem_docText ht.names c (by simp [hcs])
  rw [hcs]
  refine startsWithVariable_cons ?_ ?_ ?_ _
  all_goals
    rintro rfl
    exact absurd hc (by decide)

/-- The type of a tag is read in front of its other parts. -/
theorem typedContent_spaced {t : Ty} (ht : IsTagType t) (ps : List Text)
    (hps : trim (spaced ps) = spaced ps)
    (habsent : t.isDefined = false → spaced ps = [] ∨ startsWithVariable (spaced ps) = true) :
    typedContent (spaced (docText t :: ps)) = (denull t, spaced ps) := by
  have hcut : (t.isDefined = false → spaced ps = []) →
      startsWithVariable (spaced (docText t :: ps)) = false →
      typedContent (spaced (docText t :: ps)) = (denull t, spaced ps) := by
    intro hnil hno
    rw [typedContent, if_neg (by simp [hno]), splitType_spaced ht ps hps hnil]
    exact congrArg (·, spaced ps) (read_docText ht)
  cases h : t.isDefined with
  | true =>
      refine hcut (by simp [h]) ?_
      rw [spaced_cons (docText_ne_nil ht.names (ht.normal h))]
      exact startsWithVariable_docText ht h _
  | false =>
      have hnil : docText t = [] := by rw [eq_undefined h, docText]
      have hspaced : spaced (docText t :: ps) = spaced ps := by rw [hnil, spaced_nil_cons]
      rcases habsent h with hps' | hvariable
      · refine hcut (fun _ => hps') ?_
        rw [hspaced, hps']
        rfl
      · rw [hspaced, typedContent, if_pos hvariable, eq_undefined h]
        rfl

/-! ### The variable -/

/-- A variable is cut off in front of the words. -/
theorem targetOf?_variable {name : Text} (hname : IsVariableName name) {words : Text}
    (hwords : trim words = words) :
    targetOf? ('$' :: name ++ behind words) = some (name, words) := by
  have hword : ∀ c ∈ '$' :: name, (!isBlank c) = true := by
    rw [List.forall_mem_cons]
    exact ⟨by decide, fun c hc => by simp [hname.not_blank c hc]⟩
  obtain ⟨htake, hdrop⟩ := cut_append_behind (p := (!isBlank ·)) (by decide) [] words
  obtain ⟨c, cs, rfl⟩ := List.exists_cons_of_ne_nil hname.ne_nil
  have hdollar : c ≠ '$' := fun h => hname.dollar (by simp [h])
  have hstart : startsWithVariable ('$' :: (c :: cs) ++ behind words) = true := by
    simp [startsWithVariable]
  rw [List.nil_append] at htake hdrop
  rw [targetOf?, hstart, List.takeWhile_append_of_pos hword, htake,
    List.dropWhile_append_of_pos hword, hdrop, List.dropWhile_nil, List.nil_append,
    trim_behind hwords]
  simp [hdollar]

/-! ### The tag -/

/-- The words of a tag, with nothing behind them. -/
theorem spaced_words {d : Option Text} (hd : ∀ s ∈ d, IsSentence s) :
    spaced [d.getD []] = d.getD [] ∧ trim (d.getD []) = d.getD [] ∧ trim? (d.getD []) = d := by
  refine ⟨spaced_singleton _, ?_, trim?_getD fun s hs => ⟨(hd s hs).ne_nil, (hd s hs).trim_eq⟩⟩
  cases d with
  | none => rfl
  | some s => exact (hd s rfl).trim_eq

/-- The variable and the words of a tag. -/
theorem spaced_variable {name : Text} (hname : IsVariableName name) {d : Option Text}
    (hd : ∀ s ∈ d, IsSentence s) :
    spaced ['$' :: name, d.getD []] = '$' :: name ++ behind (d.getD []) ∧
      trim (spaced ['$' :: name, d.getD []]) = spaced ['$' :: name, d.getD []] ∧
      startsWithVariable (spaced ['$' :: name, d.getD []]) = true := by
  obtain ⟨hspaced, htrim, _⟩ := spaced_words hd
  have hcons : spaced ['$' :: name, d.getD []] = '$' :: name ++ behind (d.getD []) := by
    rw [spaced_cons (by simp), hspaced]
  have htight : Tight ('$' :: name) := by
    refine tight_of_forall (by simp) ?_
    rw [List.forall_mem_cons]
    exact ⟨by decide, hname.not_blank⟩
  refine ⟨hcons, ?_, ?_⟩
  · rw [hcons]
    exact trim_append_behind htight htrim
  · rw [hcons]
    simp [startsWithVariable]

/-- The type, the variable and the words of a tag are read one after the other. -/
theorem read_variable {t : Ty} (ht : IsTagType t) {name : Text} (hname : IsVariableName name)
    {d : Option Text} (hd : ∀ s ∈ d, IsSentence s) :
    ∃ rest, typedContent (spaced [docText t, '$' :: name, d.getD []]) = (denull t, rest) ∧
      targetOf? rest = some (name, d.getD []) := by
  obtain ⟨hcons, htrim, hstart⟩ := spaced_variable hname hd
  refine ⟨_, typedContent_spaced ht _ htrim fun _ => Or.inr hstart, ?_⟩
  rw [hcons]
  exact targetOf?_variable hname (spaced_words hd).2.1

/-- A tag without `?T` spells null in one way already. -/
theorem mapTy_of_optionalFree {t : DocTag} (h : t.Spellable)
    (hfree : ∀ ty ∈ t.ty?, OptionalFree ty) : t.mapTy denull = t := by
  cases h with
  | param ht => rw [mapTy, denull_of_optionalFree (hfree _ rfl) ht.normal]
  | result ht => rw [mapTy, denull_of_optionalFree (hfree _ rfl) ht.normal]
  | named ht => rw [mapTy, denull_of_optionalFree (hfree _ rfl) ht.normal]
  | unnamed ht => rw [mapTy, denull_of_optionalFree (hfree _ rfl) ht.normal]
  | other => rfl

/-- The result tag has a type and words. -/
theorem ofContent_result {content type words : Text} (h : splitType content = (type, words))
    (n : Nat) : ofContent n "return".toList content = .result ⟨n, Ty.read type⟩ (trim? words) := by
  rw [ofContent, if_neg (by decide), if_pos rfl]
  simp only [h]

section Typed

variable {content rest name words : Text} {t : Ty}

/-- The parameter tag has a type, a variable and words. -/
theorem ofContent_param (htyped : typedContent content = (t, rest))
    (htarget : targetOf? rest = some (name, words)) (n : Nat) :
    ofContent n "param".toList content = .param ⟨n, t⟩ name (trim? words) := by
  rw [ofContent, if_pos rfl]
  simp only [htyped, htarget]

/-- The variable tag has the same parts. -/
theorem ofContent_named (htyped : typedContent content = (t, rest))
    (htarget : targetOf? rest = some (name, words)) (n : Nat) :
    ofContent n "var".toList content = .var ⟨n, t⟩ (some name) (trim? words) := by
  rw [ofContent, if_neg (by decide), if_neg (by decide), if_pos rfl]
  simp only [htyped, htarget]

/-- Its variable may be left out. -/
theorem ofContent_unnamed (htyped : typedContent content = (t, rest))
    (htarget : targetOf? rest = none) (n : Nat) :
    ofContent n "var".toList content = .var ⟨n, t⟩ none (trim? rest) := by
  rw [ofContent, if_neg (by decide), if_neg (by decide), if_pos rfl]
  simp only [htyped, htarget]

end Typed

/-- **The parts of a tag are read back**, up to the spelling of null. -/
theorem ofContent_parts {t : DocTag} (h : t.Spellable) (n : Nat) :
    ofContent n t.name (spaced t.parts) = (t.mapTy denull).atLine n := by
  cases h with
  | @param _ t name d ht hname hd =>
      obtain ⟨rest, htyped, htarget⟩ := read_variable ht hname hd
      obtain ⟨_, _, hsome⟩ := spaced_words hd
      exact (ofContent_param htyped htarget n).trans (by rw [hsome]; rfl)
  | @result _ t d ht hd habsent =>
      obtain ⟨hspaced, hwords, hsome⟩ := spaced_words hd
      have hcut := splitType_spaced ht [d.getD []] (by rw [hspaced, hwords])
        fun h => by rw [habsent h]; rfl
      rw [hspaced] at hcut
      exact (ofContent_result hcut n).trans (by rw [read_docText ht, hsome]; rfl)
  | @named _ t name d ht hname hd =>
      obtain ⟨rest, htyped, htarget⟩ := read_variable ht hname hd
      obtain ⟨_, _, hsome⟩ := spaced_words hd
      exact (ofContent_named htyped htarget n).trans (by rw [hsome]; rfl)
  | @unnamed _ t d ht hd habsent hvariable =>
      obtain ⟨hspaced, hwords, hsome⟩ := spaced_words hd
      have htyped := typedContent_spaced ht [d.getD []] (by rw [hspaced, hwords])
        fun h => Or.inl (by rw [habsent h]; rfl)
      have htarget : targetOf? (d.getD []) = none := by
        cases d with
        | none => rfl
        | some s => simp [targetOf?, hvariable s rfl]
      rw [hspaced] at htyped
      exact (ofContent_unnamed htyped htarget n).trans (by rw [hsome]; rfl)
  | @other _ name content hname hcontent =>
      obtain ⟨hspaced, _, hsome⟩ := spaced_words hcontent
      have huntyped := hname.untyped
      simp only [List.map_cons, List.map_nil, List.mem_cons, List.not_mem_nil, not_or, or_false]
        at huntyped
      change ofContent n name _ = _
      simp only [ofContent, parts, hspaced, huntyped, if_false, hsome, mapTy, atLine]

end DocTag

namespace DocBlock

open Text Ty DocTag

/-! ### The line -/

/-- The code points of the blanks. -/
def blankCodes : List Nat :=
  List.range' 9 5 ++ [0x20, 0x85, 0xA0, 0x1680] ++ List.range' 0x2000 11 ++
    [0x2028, 0x2029, 0x202F, 0x205F, 0x3000]

theorem mem_blankCodes {c : Char} (h : isBlank c = true) : c.toNat ∈ blankCodes := by
  simp only [isBlank, Bool.or_eq_true, Bool.and_eq_true, decide_eq_true_eq, beq_iff_eq] at h
  simp only [blankCodes, List.mem_append, List.mem_range'_1, List.mem_cons, List.not_mem_nil,
    or_false]
  omega

/-- No blank stands in the name of a tag. -/
theorem isBlank_of_isTagNameChar {c : Char} (h : isTagNameChar c = true) : isBlank c = false := by
  cases hb : isBlank c with
  | false => rfl
  | true =>
      have hall : ∀ n ∈ blankCodes, isTagNameChar (Char.ofNat n) = false := by decide +kernel
      have hc := hall _ (mem_blankCodes hb)
      rw [Char.ofNat_toNat, h] at hc
      cases hc

/-- Words behind a space are behind the name of a tag. -/
theorem cut_tagName (body s : Text) :
    (body ++ behind s).takeWhile isTagNameChar = body.takeWhile isTagNameChar ∧
      (body ++ behind s).dropWhile isTagNameChar = body.dropWhile isTagNameChar ++ behind s :=
  cut_append_behind (by decide +kernel) body s

/-- The name of a tag is read in front of its content; blank lines behind it add nothing. -/
theorem readTag_append {name content : Text} (hne : name ≠ [])
    (hchars : ∀ c ∈ name, isTagNameChar c = true) (hsmall : lowercase name = name)
    (hcontent : trim content = content) (n : Nat) {rest : List (Text × Nat)}
    (hrest : ∀ l ∈ rest, isBlankLine l = true) :
    readTag (('@' :: (name ++ behind content), n), rest) =
      .ok (DocTag.ofContent n name content) := by
  have hbehind : (behind content).takeWhile isTagNameChar = [] ∧
      (behind content).dropWhile isTagNameChar = behind content := cut_tagName [] content
  have hbody : tagBody ('@' :: (name ++ behind content)) = name ++ behind content := by
    rw [tagBody, trimStart_cons (by decide)]
    rfl
  have hname : (name ++ behind content).takeWhile isTagNameChar = name := by
    rw [List.takeWhile_append_of_pos hchars, hbehind.1, List.append_nil]
  have htail : (name ++ behind content).dropWhile isTagNameChar = behind content := by
    rw [List.dropWhile_append_of_pos hchars, hbehind.2]
  have hnone : ((rest.map (·.1)).map trim).filter (!·.isEmpty) = [] := by
    rw [List.filter_eq_nil_iff, List.forall_mem_map, List.forall_mem_map]
    exact fun l hl => by simpa [isBlankLine] using hrest l hl
  have hjoin : join " " (((behind content :: rest.map (·.1)).map trim).filter (!·.isEmpty)) =
      content := by
    rw [List.map_cons, trim_behind hcontent, List.filter_cons, hnone]
    cases content with
    | nil => rfl
    | cons c cs => simp [join]
  obtain ⟨c, cs, rfl⟩ := List.exists_cons_of_ne_nil hne
  simp only [readTag, hbody, hname, htail, hjoin, hsmall]

/-- The name of a tag. -/
theorem name_of_spellable {t : DocTag} (h : t.Spellable) :
    t.name ≠ [] ∧ (∀ c ∈ t.name, isTagNameChar c = true) ∧ lowercase t.name = t.name := by
  have htyped : ∀ name ∈ ["param", "return", "var"].map String.toList,
      name ≠ [] ∧ (∀ c ∈ name, isTagNameChar c = true) ∧ lowercase name = name := by
    have hall : ∀ name ∈ ["param", "return", "var"].map String.toList,
        name ≠ [] ∧ name.all isTagNameChar = true ∧ lowercase name = name := by decide +kernel
    exact fun name hname => (hall name hname).imp_right (And.imp_left List.all_eq_true.1)
  cases h with
  | param => exact htyped "param".toList (by decide)
  | result => exact htyped "return".toList (by decide)
  | named => exact htyped "var".toList (by decide)
  | unnamed => exact htyped "var".toList (by decide)
  | other hname => exact ⟨hname.ne_nil, hname.isTagNameChar, hname.small⟩

/-- What holds of the parts of every tag: they are trimmed and stand on one line. -/
theorem parts_of_spellable {t : DocTag} (h : t.Spellable) :
    ∀ p ∈ t.parts, trim p = p ∧ '\n' ∉ p := by
  have htype : ∀ {t : Ty}, IsTagType t → trim (docText t) = docText t ∧ '\n' ∉ docText t :=
    fun ht => ⟨trim_docText ht, not_mem_docText (by decide) ht.names⟩
  have hvariable : ∀ {name : Text}, IsVariableName name →
      trim ('$' :: name) = '$' :: name ∧ '\n' ∉ '$' :: name := by
    intro name hname
    have hblank : ∀ c ∈ '$' :: name, isBlank c = false := by
      rw [List.forall_mem_cons]
      exact ⟨by decide, hname.not_blank⟩
    refine ⟨(tight_of_forall (by simp) hblank).trim_eq, fun hmem => ?_⟩
    exact absurd (hblank _ hmem) (by decide)
  have hwords : ∀ {d : Option Text}, (∀ s ∈ d, IsSentence s) →
      trim (d.getD []) = d.getD [] ∧ '\n' ∉ d.getD [] := by
    intro d hd
    cases d with
    | none => exact ⟨rfl, by simp⟩
    | some s => exact ⟨(hd s rfl).trim_eq, (hd s rfl).newline⟩
  cases h with
  | param ht hname hd =>
      simp only [parts, List.forall_mem_cons]
      exact ⟨htype ht, hvariable hname, hwords hd, by simp⟩
  | result ht hd =>
      simp only [parts, List.forall_mem_cons]
      exact ⟨htype ht, hwords hd, by simp⟩
  | named ht hname hd =>
      simp only [parts, List.forall_mem_cons]
      exact ⟨htype ht, hvariable hname, hwords hd, by simp⟩
  | unnamed ht hd =>
      simp only [parts, List.forall_mem_cons]
      exact ⟨htype ht, hwords hd, by simp⟩
  | other _ hcontent =>
      simp only [parts, List.forall_mem_cons]
      exact ⟨hwords hcontent, by simp⟩

theorem trim_spaced_parts {t : DocTag} (h : t.Spellable) :
    trim (spaced t.parts) = spaced t.parts :=
  trim_spaced fun p hp => (parts_of_spellable h p hp).1

/-- **A tag is read back from its line.** -/
theorem readTag_text {t : DocTag} (h : t.Spellable) (n : Nat) {rest : List (Text × Nat)}
    (hrest : ∀ l ∈ rest, isBlankLine l = true) :
    readTag ((t.text, n), rest) = .ok ((t.mapTy denull).atLine n) := by
  obtain ⟨hne, hchars, hsmall⟩ := name_of_spellable h
  rw [text, readTag_append hne hchars hsmall (trim_spaced_parts h) n hrest, ofContent_parts h]

/-- The line of a tag is trimmed and holds no line feed. -/
theorem trim_text {t : DocTag} (h : t.Spellable) : trim t.text = t.text ∧ '\n' ∉ t.text := by
  obtain ⟨_, hchars, _⟩ := name_of_spellable h
  have hname : ∀ c ∈ '@' :: t.name, isBlank c = false := by
    rw [List.forall_mem_cons]
    exact ⟨by decide, fun c hc => isBlank_of_isTagNameChar (hchars c hc)⟩
  constructor
  · exact trim_append_behind (tight_of_forall (by simp) hname) (trim_spaced_parts h)
  · have hbehind : '\n' ∉ behind (spaced t.parts) := by
      intro hmem
      rcases mem_behind hmem with h' | hmem
      · exact absurd h' (by decide)
      · rcases mem_spaced hmem with h' | ⟨p, hp, hmem⟩
        · exact absurd h' (by decide)
        · exact (parts_of_spellable h p hp).2 hmem
    have hno : '\n' ∉ '@' :: t.name := fun hmem => absurd (hname _ hmem) (by decide)
    rw [text, ← List.cons_append, List.mem_append, not_or]
    exact ⟨hno, hbehind⟩

/-- The line of a tag does not end the comment. -/
theorem staysOpen_text {t : DocTag} (h : t.Spellable) (hopen : t.NameStaysOpen) :
    StaysOpen t.text := by
  have hslash : isTagNameChar '/' = false := by decide +kernel
  have hname : StaysOpen ('@' :: t.name) := by
    refine staysOpen_of_not_mem ?_
    rw [List.mem_cons, not_or]
    refine ⟨by decide, fun hmem => ?_⟩
    rw [(name_of_spellable h).2.1 _ hmem] at hslash
    cases hslash
  have htype : ∀ {t : Ty}, IsTagType t → StaysOpen (docText t) :=
    fun ht => staysOpen_of_not_mem (not_mem_docText (by decide) ht.names)
  have hwords : ∀ {d : Option Text}, (∀ s ∈ d, IsSentence s) → StaysOpen (spaced [d.getD []]) := by
    intro d hd
    rw [(spaced_words hd).1]
    cases d with
    | none => exact staysOpen_of_not_mem (by simp)
    | some s => exact (hd s rfl).open_end
  have hvariable : ∀ {name : Text} {d : Option Text}, (∀ s ∈ d, IsSentence s) →
      (d = none → StaysOpen name) → StaysOpen (spaced ['$' :: name, d.getD []]) := by
    intro name d hd hlast
    refine staysOpen_spaced_cons (hwords hd) fun hnil => ?_
    have hnone : d = none := by
      cases d with
      | none => rfl
      | some s =>
          rw [(spaced_words hd).1] at hnil
          exact absurd hnil (hd s rfl).ne_nil
    exact (hlast hnone).append_cons (by decide) (by decide) []
  have hparts : StaysOpen (spaced t.parts) := by
    cases h with
    | param ht _ hd =>
        exact staysOpen_spaced_cons (hvariable hd fun hnone => hopen hnone _ rfl) fun _ => htype ht
    | result ht hd => exact staysOpen_spaced_cons (hwords hd) fun _ => htype ht
    | named ht _ hd =>
        exact staysOpen_spaced_cons (hvariable hd fun hnone => hopen hnone _ rfl) fun _ => htype ht
    | unnamed ht hd => exact staysOpen_spaced_cons (hwords hd) fun _ => htype ht
    | other _ hcontent => exact hwords hcontent
  exact staysOpen_append_behind hparts fun _ => hname

theorem beginsTag_text (t : DocTag) : beginsTag t.text = true := by
  rw [beginsTag, text, trimStart_cons (by decide)]
  rfl

end DocBlock

end HintCheck
