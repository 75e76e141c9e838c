/-
**Properties and promoted parameters.**

The type of a property and the type of a parameter are put together by two readers.  They do not
treat the same words as modifiers, and only the reader of parameters counts brackets and looks ahead
behind an ampersand.  Where tokens are those of a property that a constructor could declare too,
the two readers go over them in step: both have the same group of attributes open, and both have put
the same text together.

Main definitions:

* `HintCheck.Layout.BalancedGroup` — a group of attributes, of which only the brackets matter;
* `HintCheck.Layout.PropertyHead` — attributes, modifiers, a type and a variable;
* `HintCheck.Layout.InStep` — tokens that lead both readers to the same place.

Main results:

* `HintCheck.Layout.exists_inStep_group`, `HintCheck.Layout.inStep_modifier`,
  `HintCheck.Layout.inStep_type` — both readers go over each piece of a property in step;
* `HintCheck.Layout.PropertyHead.read_as_parameter` — **a property and a parameter that are written
  with the same tokens have the same type**.
-/

import HintCheck.Proofs.Signature.Opening
import HintCheck.Proofs.Signature.Recover

set_option relaxedAutoImplicit false
set_option autoImplicit false

namespace HintCheck

namespace Layout

open Ty

/-! ### Properties as tokens -/

/-- A group of attributes, with anything inside whose brackets are all opened and closed. -/
structure BalancedGroup where
  opening : TokenOf .attributeOpen
  inner : List Token
  closing : Token
  nested : Nested (fun _ _ => True) 0 inner
  closes : closing.kind.closes = true

def BalancedGroup.tokens (g : BalancedGroup) : List Token :=
  g.opening.val :: (g.inner ++ [g.closing])

/-- What can stand in front of the type of a property that a constructor could declare too. -/
inductive PropertyPiece where
  | attributes (g : BalancedGroup)
  | modifier (t : TokenOf .identifier) (h : Draft.isPromotion t.val.text = true)

@[simp] def PropertyPiece.tokens : PropertyPiece → List Token
  | attributes g => g.tokens
  | modifier t _ => [t.val]

/-- A property up to its variable.  The first word of its type is not a modifier, and the type does
not end with an ampersand, which would be the mark of a reference. -/
structure PropertyHead where
  lead : List PropertyPiece
  type : List Token
  var : TokenOf .dollarName
  nested : Nested (fun _ => TypeToken) 0 type
  first : ∀ t ∈ type.head?, t.kind = .identifier → isPropertyModifier t.text = false
  last : ∀ t ∈ type.getLast?, t.kind ≠ .ampersand

def PropertyHead.tokens (p : PropertyHead) : List Token :=
  p.lead.flatMap PropertyPiece.tokens ++ p.type ++ [p.var.val]

/-! ### Two readers in step -/

/-- Tokens lead the reader of parameters from one state to another one, and the reader of properties
from the group and the text of the first state to those of the other one. -/
structure InStep (s s' : ParamState) (ts rest : List Token) : Prop where
  read_eq : ParamList.read s (ts ++ rest) = ParamList.read s' rest
  text_eq : ∀ more, declarationText s.group s.draft.typeText (ts ++ more) =
    declarationText s'.group s'.draft.typeText more

theorem InStep.refl (s : ParamState) (rest : List Token) : InStep s s [] rest :=
  ⟨rfl, fun _ => rfl⟩

theorem InStep.append {s₁ s₂ s₃ : ParamState} {ts us rest : List Token}
    (h : InStep s₁ s₂ ts (us ++ rest)) (h' : InStep s₂ s₃ us rest) :
    InStep s₁ s₃ (ts ++ us) rest where
  read_eq := by rw [List.append_assoc, h.read_eq, h'.read_eq]
  text_eq more := by rw [List.append_assoc, h.text_eq, h'.text_eq]

variable {d : Draft} {rest : List Token}

/-! ### Groups of attributes -/

/-- A token that does not continue a name moves the depth of a group, or closes the group. -/
theorem map_depth_pass (g : AttributeGroup) (kind : TokenKind) :
    (g.pass kind).map (·.depth) =
      if kind.closes = true ∧ g.depth ≤ 1 then none else some (kind.depthAfter g.depth) := by
  cases hc : kind.closes with
  | true =>
      have ho : kind.opens = false := by cases kind <;> first | rfl | cases hc
      by_cases hd : g.depth ≤ 1
      · simp [AttributeGroup.pass, hc, hd]
      · have hdepth : g.depth - 1 ≠ 0 := by omega
        simp [AttributeGroup.pass, hc, hd, hdepth, TokenKind.depthAfter, ho]
  | false =>
      by_cases hcomma : kind = .comma ∧ g.depth = 1
      · simp [AttributeGroup.pass, hcomma, TokenKind.depthAfter, TokenKind.opens, TokenKind.closes]
      · simp [AttributeGroup.pass, hc, hcomma]

/-- Every token does so, since the parts of a name are no brackets. -/
theorem map_depth_feed (g : AttributeGroup) (t : Token) :
    (g.feed t).2.map (·.depth) =
      if t.kind.closes = true ∧ g.depth ≤ 1 then none else some (t.kind.depthAfter g.depth) := by
  cases hname : g.name with
  | none => simpa [AttributeGroup.feed, hname] using map_depth_pass g t.kind
  | some name =>
      by_cases hpart : AttributeGroup.isNamePart t.kind = true
      · have hkind : t.kind = .identifier ∨ t.kind = .separator := by
          simpa [AttributeGroup.isNamePart] using hpart
        rcases hkind with hkind | hkind
        · simp [AttributeGroup.feed, hname, AttributeGroup.isNamePart, hkind, TokenKind.depthAfter,
            TokenKind.opens, TokenKind.closes]
        · simp [AttributeGroup.feed, hname, AttributeGroup.isNamePart, hkind, TokenKind.depthAfter,
            TokenKind.opens, TokenKind.closes]
      · simpa [AttributeGroup.feed, hname, hpart] using map_depth_pass g t.kind

theorem depthAfter_succ {kind : TokenKind} {k : Nat} (hclose : kind.closes = true → k ≠ 0) :
    kind.depthAfter (k + 1) = kind.depthAfter k + 1 := by
  unfold TokenKind.depthAfter
  split
  · rfl
  · split
    · next hc =>
      have hk := hclose hc
      omega
    · rfl

/-- Inside of a group, only names of attributes are read. -/
theorem inStep_feed (g : AttributeGroup) (t : Token) (rest : List Token) :
    InStep ⟨d, 0, some g⟩ ⟨addNames d (g.feed t).1, 0, (g.feed t).2⟩ [t] rest where
  read_eq := read_group 0 g t rest
  text_eq _ := by
    rw [List.singleton_append, declarationText]
    rfl

/-- Tokens with balanced brackets leave the group open. -/
theorem exists_inStep_nested {ts : List Token} {k : Nat} (h : Nested (fun _ _ => True) k ts)
    {g : AttributeGroup} (hg : g.depth = k + 1) (d : Draft) (rest : List Token) :
    ∃ names g', g'.depth = 1 ∧
      InStep ⟨d, 0, some g⟩ ⟨addNames d names, 0, some g'⟩ ts rest := by
  induction ts generalizing k g d with
  | nil =>
      have hk : k = 0 := h
      exact ⟨[], g, by rw [hg, hk], by rw [addNames_nil]; exact .refl _ rest⟩
  | cons t ts ih =>
      obtain ⟨_, hclose, h⟩ := h
      have hopen : ¬(t.kind.closes = true ∧ g.depth ≤ 1) := by
        rintro ⟨hc, hle⟩
        have hk := hclose hc
        omega
      have hfeed := map_depth_feed g t
      rw [if_neg hopen] at hfeed
      obtain ⟨g₁, hg₁, hdepth⟩ := Option.map_eq_some_iff.1 hfeed
      rw [hg, depthAfter_succ hclose] at hdepth
      obtain ⟨names, g', hg', hrest⟩ := ih h hdepth (addNames d (g.feed t).1)
      have hstep := inStep_feed (d := d) g t (ts ++ rest)
      rw [hg₁] at hstep
      rw [addNames_addNames] at hrest
      exact ⟨_, g', hg', hstep.append hrest⟩

/-- A group adds names of attributes and nothing else. -/
theorem exists_inStep_group (hd : Fresh d) (g : BalancedGroup) (rest : List Token) :
    ∃ names, InStep ⟨d, 0, none⟩ ⟨addNames d names, 0, none⟩ g.tokens rest := by
  obtain ⟨names, g', hg', hinner⟩ :=
    exists_inStep_nested g.nested (g := .start) rfl d ([g.closing] ++ rest)
  have hopening : InStep ⟨d, 0, none⟩ ⟨d, 0, some .start⟩ [g.opening.val]
      (g.inner ++ ([g.closing] ++ rest)) :=
    ⟨read_attributeOpen hd.default g.opening _, fun more => by
      simp [declarationText, g.opening.property]⟩
  have hclosing := inStep_feed (d := addNames d names) g' g.closing rest
  have hnone : (g'.feed g.closing).2 = none := by
    have hfeed := map_depth_feed g' g.closing
    rwa [if_pos ⟨g.closes, Nat.le_of_eq hg'⟩, Option.map_eq_none_iff] at hfeed
  rw [hnone, addNames_addNames] at hclosing
  exact ⟨_, (hopening.append hinner).append hclosing⟩

/-! ### Modifiers -/

theorem isPropertyModifier_of_isPromotion {text : Text} (h : Draft.isPromotion text = true) :
    isPropertyModifier text = true := by
  obtain ⟨m, hm, hsame⟩ := List.any_eq_true.1 h
  refine List.any_eq_true.2 ⟨m, ?_, hsame⟩
  exact List.mem_append_left ["static", "var", "final", "abstract"] hm

/-- A modifier is no text of the type, to neither of the readers. -/
theorem inStep_modifier (hd : Fresh d) (t : TokenOf .identifier)
    (h : Draft.isPromotion t.val.text = true) (rest : List Token) :
    InStep ⟨d, 0, none⟩ ⟨{ d with promoted := true }, 0, none⟩ [t.val] rest where
  read_eq := by
    have hkind := t.property
    rw [List.singleton_append, read_take hd.default (by simp [hkind])]
    simp [Draft.take, hkind, hd.typeText, hd.name, h]
  text_eq more := by
    simp [declarationText, t.property, hd.typeText, isPropertyModifier_of_isPromotion h]

/-- Groups of attributes and modifiers leave the type unread, and add no comment. -/
theorem exists_inStep_lead (hd : Fresh d) (hdoc : d.doc = none) (ps : List PropertyPiece)
    (rest : List Token) :
    ∃ d', Fresh d' ∧ d'.doc = none ∧
      InStep ⟨d, 0, none⟩ ⟨d', 0, none⟩ (ps.flatMap PropertyPiece.tokens) rest := by
  induction ps generalizing d with
  | nil => exact ⟨d, hd, hdoc, .refl _ rest⟩
  | cons p ps ih =>
      obtain ⟨d₁, hd₁, hdoc₁, hpiece⟩ : ∃ d₁, Fresh d₁ ∧ d₁.doc = none ∧
          InStep ⟨d, 0, none⟩ ⟨d₁, 0, none⟩ p.tokens
            (ps.flatMap PropertyPiece.tokens ++ rest) := by
        cases p with
        | attributes g =>
            obtain ⟨names, hgroup⟩ := exists_inStep_group hd g _
            exact ⟨addNames d names, ⟨hd.typeText, hd.name, hd.default⟩, hdoc, hgroup⟩
        | modifier t h =>
            exact ⟨{ d with promoted := true }, ⟨hd.typeText, hd.name, hd.default⟩, hdoc,
              inStep_modifier hd t h _⟩
      obtain ⟨d', hd', hdoc', hlead⟩ := ih hd₁ hdoc₁
      exact ⟨d', hd', hdoc', hpiece.append hlead⟩

/-! ### Types -/

/-- The reader of properties adds the texts of a type, too. -/
theorem declarationText_type {ts : List Token} {n : Nat} (h : Nested (fun _ => TypeToken) n ts)
    {text : Text} (hfirst : text = [] →
      ∀ t ∈ ts.head?, t.kind = .identifier → isPropertyModifier t.text = false)
    (more : List Token) :
    declarationText none text (ts ++ more) = declarationText none (text ++ spelled ts) more := by
  induction ts generalizing text n with
  | nil => simp
  | cons t ts ih =>
      obtain ⟨⟨hkind, hne, _⟩, _, h⟩ := h
      have hvar : t.kind ≠ .dollarName := ne_of_isTypePart hkind rfl
      have hattribute : t.kind ≠ .attributeOpen := ne_of_isTypePart hkind rfl
      have hmodifier :
          (decide (t.kind = .identifier) && text.isEmpty && isPropertyModifier t.text) = false := by
        cases hword : decide (t.kind = .identifier) with
        | false => rfl
        | true =>
            cases text with
            | nil => simpa using hfirst rfl t rfl (by simpa using hword)
            | cons c cs => rfl
      have hrest : declarationText none (text ++ t.text) (ts ++ more) =
          declarationText none (text ++ t.text ++ spelled ts) more :=
        ih h fun hnil => absurd (List.append_eq_nil_iff.1 hnil).2 hne
      rw [List.cons_append, declarationText, if_neg hvar, if_neg hattribute,
        if_neg (by simp [hmodifier]), if_pos hkind, hrest]
      simp

/-- A type adds its text for both readers. -/
theorem inStep_type {ts : List Token} (hd : Fresh d) (h : Nested (fun _ => TypeToken) 0 ts)
    (hfirst : ∀ t ∈ ts.head?, t.kind = .identifier → isPropertyModifier t.text = false)
    (hlast : ∀ t ∈ ts.getLast?, t.kind ≠ .ampersand) (rest : List Token) :
    InStep ⟨d, 0, none⟩ ⟨d.addType (spelled ts), 0, none⟩ ts rest where
  read_eq := by
    refine read_type hd.default h (fun _ t ht hk => ?_) fun t ht hk => absurd hk (hlast t ht)
    rw [← Bool.not_eq_true]
    intro hpromotion
    have hmodifier := hfirst t ht hk
    rw [isPropertyModifier_of_isPromotion hpromotion] at hmodifier
    cases hmodifier
  text_eq := declarationText_type h fun _ => hfirst

/-! ### Properties -/

/-- The variable ends the type for both readers. -/
theorem exists_read_variable (hd : d.default = none) (hdoc : d.doc = none)
    (v : TokenOf .dollarName) (closing : TokenOf .closeParen) :
    declarationText none d.typeText [v.val] = d.typeText ∧
      ∃ param, ParamList.read ⟨d, 0, none⟩ [v.val, closing.val] =
        .ok ⟨[param], closing.val.line, []⟩ ∧ param.ty = Ty.read d.typeText := by
  refine ⟨by simp [declarationText, v.property], ?_⟩
  rw [read_var hd, ParamList.read]
  simp [closing.property, Draft.finish, Draft.readDoc, hdoc, Except.map]

/-- **A property and a parameter that are written with the same tokens have the same type.** -/
theorem PropertyHead.read_as_parameter (p : PropertyHead) (keyword : TokenOf .function)
    (name : TokenOf .identifier) (opening : TokenOf .openParen) (closing : TokenOf .closeParen) :
    ∃ sig param,
      Signature.read
        (keyword.val :: name.val :: opening.val :: (p.tokens ++ [closing.val])) = .ok sig ∧
      sig.params = [param] ∧ param.ty = Ty.ofDeclaration p.tokens := by
  have hfresh : Fresh ({} : Draft) := ⟨rfl, rfl, rfl⟩
  obtain ⟨d, hd, hdoc, hlead⟩ :=
    exists_inStep_lead hfresh rfl p.lead (p.type ++ [p.var.val, closing.val])
  have hhead := hlead.append (inStep_type hd p.nested p.first p.last [p.var.val, closing.val])
  obtain ⟨htext, param, hread, hty⟩ :=
    exists_read_variable (d := d.addType (spelled p.type)) hd.default hdoc p.var closing
  let o : Opening := ⟨[], keyword, [name.val], opening, by simp, by simp [name.property]⟩
  have hname : o.name? = some name.val := by
    simp [o, Opening.name?, Signature.lastIdentifier?, name.property]
  have hopening := o.read_append (p.tokens ++ [closing.val])
  rw [hname] at hopening
  have hparams : ParamList.read {} (p.tokens ++ [closing.val]) =
      .ok ⟨[param], closing.val.line, []⟩ := by
    rw [PropertyHead.tokens, List.append_assoc, ← hread]
    exact hhead.read_eq
  refine ⟨_, param, hopening.trans (by rw [hparams]; rfl), rfl, ?_⟩
  have hproperty := (hhead.text_eq [p.var.val]).trans htext
  rw [hty, Ty.ofDeclaration, PropertyHead.tokens]
  exact congrArg Ty.read hproperty.symm

/-- The tokens of `#[A(1)] private readonly A&B $x`, between parentheses, declare one parameter, and
its type is that of the property. -/
theorem PropertyHead.read_as_parameter_of_intersection :
    let ts : List Token :=
      [⟨.attributeOpen, ['#', '['], 2⟩, ⟨.identifier, ['A'], 2⟩, ⟨.openParen, ['('], 2⟩,
        ⟨.literal, ['1'], 2⟩, ⟨.closeParen, [')'], 2⟩, ⟨.closeBracket, [']'], 2⟩,
        ⟨.identifier, "private".toList, 3⟩, ⟨.identifier, "readonly".toList, 3⟩,
        ⟨.identifier, ['A'], 3⟩, ⟨.ampersand, ['&'], 3⟩, ⟨.identifier, ['B'], 3⟩,
        ⟨.dollarName, ['$', 'x'], 3⟩]
    Ty.ofDeclaration ts = Ty.read "A&B".toList ∧ ∃ sig param,
      Signature.read (⟨.function, "function".toList, 1⟩ :: ⟨.identifier, ['f'], 1⟩ ::
        ⟨.openParen, ['('], 1⟩ :: (ts ++ [⟨.closeParen, [')'], 4⟩])) = .ok sig ∧
      sig.params = [param] ∧ param.ty = Ty.ofDeclaration ts := by
  intro ts
  have hinner : Nested (fun _ _ => True) 0
      [⟨.identifier, ['A'], 2⟩, ⟨.openParen, ['('], 2⟩, ⟨.literal, ['1'], 2⟩,
        ⟨.closeParen, [')'], 2⟩] := by
    simp [Nested, TokenKind.depthAfter, TokenKind.opens, TokenKind.closes]
  have htype : Nested (fun _ => TypeToken) 0
      [⟨.identifier, ['A'], 3⟩, ⟨.ampersand, ['&'], 3⟩, ⟨.identifier, ['B'], 3⟩] := by
    simp [Nested, TypeToken, TokenKind.isTypePart, TokenKind.depthAfter, TokenKind.opens,
      TokenKind.closes]
  refine ⟨rfl, read_as_parameter
    { lead := [
        .attributes ⟨⟨⟨.attributeOpen, ['#', '['], 2⟩, rfl⟩, _, ⟨.closeBracket, [']'], 2⟩, hinner,
          rfl⟩,
        .modifier ⟨⟨.identifier, "private".toList, 3⟩, rfl⟩ (by decide),
        .modifier ⟨⟨.identifier, "readonly".toList, 3⟩, rfl⟩ (by decide)]
      type := _
      var := ⟨⟨.dollarName, ['$', 'x'], 3⟩, rfl⟩
      nested := htype
      first := by decide
      last := by decide }
    ⟨⟨.function, "function".toList, 1⟩, rfl⟩ ⟨⟨.identifier, ['f'], 1⟩, rfl⟩
    ⟨⟨.openParen, ['('], 1⟩, rfl⟩ ⟨⟨.closeParen, [')'], 4⟩, rfl⟩⟩

end Layout

end HintCheck
