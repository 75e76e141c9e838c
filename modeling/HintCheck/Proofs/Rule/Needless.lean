/-
**Needless comments.**

A comment is called needless where it only repeats the signature.  The test goes through the
declared types and looks up a tag for each of them, so it sees the first tag that is about a
parameter or about the result, and no other.  Tag by tag this says what a needless comment is made
of: tags that restate a declared type, and tags that were passed over, which may say anything.

Main definitions:

* `HintCheck.DocTag.topic?`, `HintCheck.Signature.declared` — what a tag is about, and what the
  signature says of that;
* `HintCheck.DocTag.Restates` — the tag says nothing but what the signature says;
* `HintCheck.DocTag.PassedOver` — the tag is not looked up.

Main results:

* `HintCheck.Doc.paramTag?_eq`, `HintCheck.Doc.resultTag?_eq` — the tag that is looked up is the
  first one about its topic;
* `HintCheck.Doc.restates_or_passedOver_iff` — a tag is looked up or passed over;
* `HintCheck.Routine.repeats_tagAbout?_iff` — what is looked up has to restate the declared type;
* `HintCheck.Routine.isNeedless_iff` — **what a needless comment is made of.**
-/

import HintCheck.Proofs.Rule.Findings
import Mathlib.Logic.Basic

set_option relaxedAutoImplicit false
set_option autoImplicit false

namespace HintCheck

/-! ### What a tag is about -/

namespace DocTag

/-- What a comment can give a type to. -/
inductive Topic where
  | param (name : Text)
  | result
  deriving DecidableEq

/-- The parameter that a tag is about, or the result.  A tag for a parameter without a name is about
nothing, as are the tags of other names. -/
def topic? : DocTag → Option Topic
  | param _ name _ => some (.param name)
  | result _ _ => some .result
  | _ => none

/-- The type and the words of a tag that is about something. -/
def said? : DocTag → Option (Typing × Option Text)
  | param typing _ description => some (typing, description)
  | result typing description => some (typing, description)
  | _ => none

theorem isSome_said? {tag : DocTag} {topic : Topic} (h : tag.topic? = some topic) :
    tag.said?.isSome = true := by
  cases tag <;> first | rfl | cases h

end DocTag

/-- The types that a signature declares for a topic: none for a parameter that it does not have. -/
def Signature.declared (s : Signature) : DocTag.Topic → List Ty
  | .param name => (s.params.filter (·.name == name)).map (·.ty)
  | .result => [s.result]

theorem Signature.mem_declared_param {s : Signature} {name : Text} {t : Ty} :
    t ∈ s.declared (.param name) ↔ ∃ p ∈ s.params, p.name = name ∧ p.ty = t := by
  simp [declared, and_assoc]

namespace DocTag

variable {s : Signature} {tag : DocTag} {topic : DocTag.Topic}

/-- The tag is about something that the signature declares, has no words, and spells each type that
is declared there as a comment that repeats it does. -/
structure Restates (tag : DocTag) (s : Signature) : Prop where
  declared : ∃ topic, tag.topic? = some topic ∧ s.declared topic ≠ []
  wordless : tag.description? = none
  spelled : ∀ topic, tag.topic? = some topic → ∀ t ∈ s.declared topic,
    tag.ty?.map Ty.declText = some (Routine.repeated t)

/-- The tag is about nothing that the signature declares, or a tag in front of it is about the
same. -/
def PassedOver (tag : DocTag) (s : Signature) (front : List DocTag) : Prop :=
  ∀ topic, tag.topic? = some topic →
    s.declared topic = [] ∨ ∃ earlier ∈ front, earlier.topic? = some topic

theorem restates_iff (htopic : tag.topic? = some topic) (hdeclared : s.declared topic ≠ []) :
    tag.Restates s ↔ ∀ t ∈ s.declared topic,
      tag.description? = none ∧ tag.ty?.map Ty.declText = some (Routine.repeated t) := by
  constructor
  · intro h t ht
    exact ⟨h.wordless, h.spelled topic htopic t ht⟩
  · intro h
    obtain ⟨t, ht⟩ := List.exists_mem_of_ne_nil _ hdeclared
    refine ⟨⟨topic, htopic, hdeclared⟩, (h t ht).1, fun topic' htopic' t ht => ?_⟩
    rw [htopic, Option.some_inj] at htopic'
    exact (h t (htopic' ▸ ht)).2

end DocTag

/-! ### Looking tags up -/

/-- Looking for the first value is looking for the first member that has one. -/
theorem findSome?_eq_bind_find? {α β : Type} {f g : α → Option β} {p : α → Bool}
    (hf : ∀ a, f a = if p a then g a else none) (hg : ∀ a, p a = true → (g a).isSome = true)
    (as : List α) : as.findSome? f = (as.find? p).bind g := by
  induction as with
  | nil => rfl
  | cons a as ih =>
      rw [List.findSome?_cons, List.find?_cons, hf]
      cases hp : p a with
      | false => exact ih
      | true =>
          obtain ⟨b, hb⟩ := Option.isSome_iff_exists.1 (hg a hp)
          simp [hb]

namespace Doc

/-- The first tag about a topic. -/
def tagAbout? (doc : Doc) (topic : DocTag.Topic) : Option DocTag :=
  doc.tags.find? fun tag => tag.topic? == some topic

theorem tagAbout?_eq_some_iff {doc : Doc} {topic : DocTag.Topic} {tag : DocTag} :
    doc.tagAbout? topic = some tag ↔ tag.topic? = some topic ∧
      ∃ front back, doc.tags = front ++ tag :: back ∧
        ∀ earlier ∈ front, earlier.topic? ≠ some topic := by
  simp [tagAbout?, List.find?_eq_some_iff_append]

/-- A tag that is not passed over is the first one about something that is declared. -/
theorem exists_tagAbout?_of_not_passedOver {block : DocBlock} {s : Signature}
    {front back : List DocTag} {tag : DocTag} (htags : block.tags = front ++ tag :: back)
    (h : ¬tag.PassedOver s front) :
    ∃ topic, tagAbout? (some block) topic = some tag ∧ s.declared topic ≠ [] := by
  simp only [DocTag.PassedOver, not_forall, not_or, not_exists, not_and] at h
  obtain ⟨topic, htopic, hdeclared, hfirst⟩ := h
  exact ⟨topic, tagAbout?_eq_some_iff.2 ⟨htopic, front, back, htags, hfirst⟩, hdeclared⟩

/-- The first tag about something that is declared is not passed over. -/
theorem exists_not_passedOver_of_tagAbout? {block : DocBlock} {s : Signature}
    {topic : DocTag.Topic} {tag : DocTag} (h : tagAbout? (some block) topic = some tag)
    (hdeclared : s.declared topic ≠ []) :
    ∃ front back, block.tags = front ++ tag :: back ∧ ¬tag.PassedOver s front := by
  obtain ⟨htopic, front, back, htags, hfirst⟩ := tagAbout?_eq_some_iff.1 h
  refine ⟨front, back, htags, fun hover => ?_⟩
  rcases hover topic htopic with hnone | ⟨earlier, hmem, hearlier⟩
  · exact hdeclared hnone
  · exact hfirst earlier hmem hearlier

/-- Every tag restates the signature or is passed over, just where each tag that is looked up has no
words and spells what is declared. -/
theorem restates_or_passedOver_iff {block : DocBlock} {s : Signature} :
    (∀ front tag back, block.tags = front ++ tag :: back →
        tag.Restates s ∨ tag.PassedOver s front) ↔
      ∀ topic tag, tagAbout? (some block) topic = some tag → ∀ t ∈ s.declared topic,
        tag.description? = none ∧ tag.ty?.map Ty.declText = some (Routine.repeated t) := by
  constructor
  · intro h topic tag hfound t ht
    have hdeclared := List.ne_nil_of_mem ht
    have htopic := (tagAbout?_eq_some_iff.1 hfound).1
    obtain ⟨front, back, htags, hover⟩ := exists_not_passedOver_of_tagAbout? hfound hdeclared
    have hrestates := (h front tag back htags).resolve_right hover
    exact (DocTag.restates_iff htopic hdeclared).1 hrestates t ht
  · intro h front tag back htags
    refine or_iff_not_imp_right.2 fun hover => ?_
    obtain ⟨topic, hfound, hdeclared⟩ := exists_tagAbout?_of_not_passedOver htags hover
    have htopic := (tagAbout?_eq_some_iff.1 hfound).1
    exact (DocTag.restates_iff htopic hdeclared).2 (h topic tag hfound)

theorem paramTag?_eq (doc : Doc) (name : Text) :
    doc.paramTag? name = (doc.tagAbout? (.param name)).bind DocTag.said? := by
  refine findSome?_eq_bind_find? (fun tag => ?_) (fun tag htag => ?_) doc.tags
  · cases tag <;> simp [paramTyping?, DocTag.topic?, DocTag.said?]
  · exact DocTag.isSome_said? (beq_iff_eq.1 htag)

theorem resultTag?_eq (doc : Doc) :
    doc.resultTag? = (doc.tagAbout? .result).bind DocTag.said? := by
  refine findSome?_eq_bind_find? (fun tag => ?_) (fun tag htag => ?_) doc.tags
  · cases tag <;> simp [resultTyping?, DocTag.topic?, DocTag.said?]
  · exact DocTag.isSome_said? (beq_iff_eq.1 htag)

end Doc

/-! ### The test -/

namespace Routine

/-- A declared type is repeated where the first tag about it has no words and spells it. -/
theorem repeats_tagAbout?_iff (doc : Doc) (topic : DocTag.Topic) (t : Ty) :
    repeats ((doc.tagAbout? topic).bind DocTag.said?) t = true ↔
      ∃ tag, doc.tagAbout? topic = some tag ∧ tag.description? = none ∧
        tag.ty?.map Ty.declText = some (repeated t) := by
  cases hfound : doc.tagAbout? topic with
  | none => simp [repeats]
  | some tag =>
      have htopic := (Doc.tagAbout?_eq_some_iff.1 hfound).1
      cases tag with
      | param typing name description =>
          cases description <;> simp [repeats, DocTag.said?, DocTag.description?, DocTag.ty?]
      | result typing description =>
          cases description <;> simp [repeats, DocTag.said?, DocTag.description?, DocTag.ty?]
      | var typing name description => cases htopic
      | other line name content => cases htopic

/-- The parts of the test. -/
theorem isNeedless_eq_true_iff {r : Routine} : r.isNeedless = true ↔
    r.doc.isSome = true ∧ r.doc.hasDescription = false ∧
      (∀ tag ∈ r.doc.tags, tag.name = "param".toList ∨ tag.name = "return".toList) ∧
      (∀ p ∈ r.signature.params, ∃ tag, r.doc.tagAbout? (.param p.name) = some tag ∧
        tag.description? = none ∧ tag.ty?.map Ty.declText = some (repeated p.ty)) ∧
      ∀ tag, r.doc.tagAbout? .result = some tag →
        tag.description? = none ∧ tag.ty?.map Ty.declText = some (repeated r.signature.result) := by
  have hresult : (r.doc.resultTag?.isNone || repeats r.doc.resultTag? r.signature.result) = true ↔
      ∀ tag, r.doc.tagAbout? .result = some tag → tag.description? = none ∧
        tag.ty?.map Ty.declText = some (repeated r.signature.result) := by
    rw [Bool.or_eq_true, Doc.resultTag?_eq, repeats_tagAbout?_iff]
    cases hfound : r.doc.tagAbout? .result with
    | none => simp
    | some tag =>
        have hsaid := DocTag.isSome_said? (Doc.tagAbout?_eq_some_iff.1 hfound).1
        simpa using fun hnone => by simp [hnone] at hsaid
  simp only [isNeedless, Bool.and_eq_true, hresult, List.all_eq_true, Bool.or_eq_true, beq_iff_eq,
    Bool.not_eq_true', Doc.paramTag?_eq, repeats_tagAbout?_iff, and_assoc]

/-- **What a needless comment is made of.**  It has no description and a tag about every parameter,
and each of its tags, which are all for parameters and results, restates the signature or is passed
over.  A tag that is passed over may have any type and any words. -/
theorem isNeedless_iff (r : Routine) : r.isNeedless = true ↔
    ∃ block, r.doc = some block ∧ Doc.hasDescription (some block) = false ∧
      (∀ p ∈ r.signature.params, ∃ tag ∈ block.tags, tag.topic? = some (.param p.name)) ∧
      (∀ tag ∈ block.tags, tag.name = "param".toList ∨ tag.name = "return".toList) ∧
      ∀ front tag back, block.tags = front ++ tag :: back →
        tag.Restates r.signature ∨ tag.PassedOver r.signature front := by
  rw [isNeedless_eq_true_iff]
  constructor
  · rintro ⟨hdoc, hdescription, hnames, hparams, hresult⟩
    obtain ⟨block, hblock⟩ := Option.isSome_iff_exists.1 hdoc
    rw [hblock] at hdescription hnames hparams hresult
    refine ⟨block, hblock, hdescription, fun p hp => ?_, hnames,
      Doc.restates_or_passedOver_iff.2 fun topic tag hfound t ht => ?_⟩
    · obtain ⟨tag, hfound, -⟩ := hparams p hp
      exact ⟨tag, List.mem_of_find?_eq_some hfound, (Doc.tagAbout?_eq_some_iff.1 hfound).1⟩
    · cases topic with
      | result =>
          rw [List.mem_singleton.1 ht]
          exact hresult tag hfound
      | param name =>
          obtain ⟨p, hp, rfl, rfl⟩ := Signature.mem_declared_param.1 ht
          obtain ⟨tag', hfound', hrestates⟩ := hparams p hp
          rw [hfound, Option.some_inj] at hfound'
          exact hfound' ▸ hrestates
  · rintro ⟨block, hblock, hdescription, hparams, hnames, htags⟩
    rw [hblock]
    have hlooked := Doc.restates_or_passedOver_iff.1 htags
    refine ⟨rfl, hdescription, hnames, fun p hp => ?_, fun tag hfound => ?_⟩
    · obtain ⟨tag, hmem, htopic⟩ := hparams p hp
      have hsome : (Doc.tagAbout? (some block) (.param p.name)).isSome = true :=
        List.find?_isSome.2 ⟨tag, hmem, beq_iff_eq.2 htopic⟩
      obtain ⟨tag, hfound⟩ := Option.isSome_iff_exists.1 hsome
      exact ⟨tag, hfound, hlooked _ tag hfound p.ty
        (Signature.mem_declared_param.2 ⟨p, hp, rfl, rfl⟩)⟩
    · exact hlooked .result tag hfound _ List.mem_cons_self

/-! ### Tags that nobody looks up -/

/-- A tag for a parameter `$b`. -/
def strayTag : DocTag := .param ⟨4, .atom .string⟩ "b".toList none

/-- A tag that says what the result is. -/
def wordyTag : DocTag := .result ⟨6, .atom .string⟩ (some "The name of the thing.".toList)

/-- A function `f(int $a): int` whose comment has both tags beside those that repeat the
signature. -/
def overfull : Routine :=
  let a : Param :=
    { line := 8, name := "a".toList, ty := .atom .int, default := none, attributes := []
      doc := none, variadic := false, byRef := false, promoted := false }
  { line := 8
    signature :=
      { line := 8, name := "f".toList, result := .atom .int, resultLine := 8, params := [a] }
    doc := some
      { description := []
        tags := [.param ⟨3, .atom .int⟩ "a".toList none, strayTag,
          .result ⟨5, .atom .int⟩ none, wordyTag] }
    owner := none
    getter := none }

/-- That comment is found needless, and nothing else is found, although it has a tag for a parameter
that is not there and another type and words for the result. -/
theorem overfull_isNeedless :
    overfull.isNeedless = true ∧
      overfull.findings {} false .empty = [(8, "Useless PHPDoc".toList)] ∧
      (strayTag ∈ overfull.doc.tags ∧ overfull.signature.declared (.param "b".toList) = [] ∧
        ¬strayTag.Restates overfull.signature) ∧
      wordyTag ∈ overfull.doc.tags ∧ ¬wordyTag.Restates overfull.signature := by
  have hstray : overfull.signature.declared (.param "b".toList) = [] := by decide
  refine ⟨by decide +kernel, by decide +kernel, ⟨?_, hstray, ?_⟩, ?_, ?_⟩
  · exact .tail _ (.head _)
  · intro h
    obtain ⟨topic, htopic, hdeclared⟩ := h.declared
    cases htopic
    exact hdeclared hstray
  · exact .tail _ (.tail _ (.tail _ (.head _)))
  · intro h
    cases h.wordless

end Routine

end HintCheck
