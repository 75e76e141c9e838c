/-
**Comments between the tokens of a declaration.**

A comment that is no documentation comment says nothing, and the reader of signatures passes over
it almost everywhere.  It notices one at two kinds of places.  In a group of attributes, a comment
ends the name that is being read, so that what follows of the name is lost.  And an ampersand marks
a reference when the variable or the ellipsis is the very next token; a comment behind it makes it a
part of the type.  At all other places behind the opening of the list, comments change nothing,
neither what is read nor an error.

Main definitions:

* `HintCheck.Zone.Hides` — whether a comment between two tokens is not noticed;
* `HintCheck.Commented` — tokens with comments put in that are not noticed.

Main results:

* `HintCheck.ParamList.read_comment` — one comment;
* `HintCheck.Layout.Opening.read_commented` — **comments that are not noticed change nothing**;
* `HintCheck.Layout.Opening.not_read_of_noticed_comments` — the others do.
-/

import HintCheck.Proofs.Signature.Opening
import HintCheck.Proofs.Signature.Zone

set_option relaxedAutoImplicit false
set_option autoImplicit false

namespace HintCheck

open Layout

/-! ### Places for comments -/

/-- Whether a comment between two tokens is not noticed: no name of an attribute goes on behind it,
and no ampersand in front of it marks a reference. -/
structure Zone.Hides (z : Zone) (prev next : Option Token) : Prop where
  name : ∀ g ∈ z.group, g.naming = true → ∀ t ∈ next, AttributeGroup.isNamePart t.kind = false
  reference : z.IsHead → ∀ t ∈ prev, t.kind = .ampersand → Draft.marksReference next = false

instance (z : Zone) (prev next : Option Token) : Decidable (z.Hides prev next) :=
  decidable_of_iff
    ((∀ g ∈ z.group, g.naming = true →
        ∀ t ∈ next, AttributeGroup.isNamePart t.kind = false) ∧
      (z.IsHead → ∀ t ∈ prev, t.kind = .ampersand → Draft.marksReference next = false))
    ⟨fun h => ⟨h.1, h.2⟩, fun h => ⟨h.name, h.reference⟩⟩

/-- Tokens with comments put in, at places where they are not noticed.  The tokens stand in a zone,
or in none when the list of parameters is closed in front of them, and behind another token. -/
inductive Commented : Option Zone → Option Token → List Token → List Token → Prop
  | nil {z : Option Zone} {prev : Option Token} : Commented z prev [] []
  | comment {z : Option Zone} {prev : Option Token} {ts us : List Token} (c : TokenOf .comment)
      (hides : ∀ y ∈ z, y.Hides prev ts.head?) (h : Commented z prev ts us) :
      Commented z prev ts (c.val :: us)
  | token {z : Option Zone} {prev : Option Token} {ts us : List Token} (t : Token)
      (h : Commented (z.bind (·.after t.kind)) (some t) ts us) :
      Commented z prev (t :: ts) (t :: us)

theorem isNamePart_of_comment (c : TokenOf .comment) :
    AttributeGroup.isNamePart c.val.kind = false := by
  rw [c.property]
  rfl

theorem marksReference_of_comment (c : TokenOf .comment) (ts : List Token) :
    Draft.marksReference (c.val :: ts).head? = false :=
  Draft.marksReference_of_ne (by simp [c.property]) (by simp [c.property]) ts

namespace Commented

variable {z : Option Zone} {prev : Option Token} {ts us : List Token}

/-- The next token is the same, unless a comment that is not noticed is in front of it. -/
theorem head?_cases (h : Commented z prev ts us) :
    us.head? = ts.head? ∨
      (∀ y ∈ z, y.Hides prev ts.head?) ∧ ∃ c : TokenOf .comment, us.head? = some c.val := by
  cases h with
  | nil => exact .inl rfl
  | token t h => exact .inl rfl
  | comment c hides h => exact .inr ⟨hides, c, rfl⟩

/-- The tokens with comments hide comments in front of them too. -/
theorem hides_name (h : Commented z prev ts us) {y : Zone} (hides : y.Hides prev ts.head?) :
    ∀ g ∈ y.group, g.naming = true → ∀ t ∈ us.head?, AttributeGroup.isNamePart t.kind = false := by
  intro g hg hname t ht
  rcases h.head?_cases with hhead | ⟨-, c, hhead⟩
  · exact hides.name g hg hname t (hhead ▸ ht)
  · obtain rfl : c.val = t := Option.some_inj.1 (hhead.symm.trans ht)
    exact isNamePart_of_comment c

/-- An ampersand marks what it marks without the comments. -/
theorem marksReference_eq {y : Zone} {t : Token} (h : Commented (some y) (some t) ts us)
    (hy : y.IsHead) (ht : t.kind = .ampersand) :
    Draft.marksReference us.head? = Draft.marksReference ts.head? := by
  rcases h.head?_cases with hhead | ⟨hides, c, hhead⟩
  · rw [hhead]
  · rw [(hides y rfl).reference hy t rfl ht, hhead]
    exact marksReference_of_comment c []

/-- Behind the list, comments are not even looked at. -/
theorem resultTokens_eq (h : Commented z prev ts us) :
    Signature.resultTokens us = Signature.resultTokens ts := by
  induction h with
  | nil => rfl
  | comment c hides h ih =>
      rw [← ih]
      simp [Signature.resultTokens, Signature.endsHead, c.property, TokenKind.isTypePart]
  | token t h ih =>
      unfold Signature.resultTokens at ih ⊢
      cases hend : Signature.endsHead t with
      | true => simp [hend]
      | false => simp [hend, List.filter_cons, ih]

end Commented

/-! ### States -/

namespace ParamState

theorem endsAt_of_comment (s : ParamState) (c : TokenOf .comment) :
    s.zone.endsAt c.val.kind = false := by
  simp [Zone.endsAt, c.property]

/-- Outside of groups of attributes, a comment leaves the state as it is. -/
theorem next_comment_of_no_group {s : ParamState} (hs : s.group = none) (c : TokenOf .comment)
    (n : Option Token) : s.next c.val n = s := by
  obtain ⟨d, depth, group⟩ := s
  cases hs
  cases hd : d.default <;> simp [next, step, hd, c.property, Draft.take]

/-- In a group, a comment is a token that does not go on with a name. -/
theorem next_comment_of_group {d : Draft} {depth k : Nat} {name : Option Text}
    (c : TokenOf .comment) (n : Option Token) :
    next ⟨d, depth, some ⟨k, name⟩⟩ c.val n =
      ⟨{ d with attributes := d.attributes ++ AttributeGroup.ended ⟨k, name⟩ }, depth,
        some ⟨k, none⟩⟩ := by
  cases name <;>
    simp [next, feedGroup, AttributeGroup.feed, AttributeGroup.ended, AttributeGroup.pass,
      c.property, TokenKind.closes, TokenKind.depthAfter, TokenKind.opens,
      AttributeGroup.isNamePart]

/-- A token that does not go on with a name finds the group as it would behind a comment. -/
theorem next_next_comment {d : Draft} {depth k : Nat} {name : Option Text} {t : Token}
    (h : name.isSome → AttributeGroup.isNamePart t.kind = false) (c : TokenOf .comment)
    (m n : Option Token) :
    (next ⟨d, depth, some ⟨k, name⟩⟩ c.val m).next t n =
      next ⟨d, depth, some ⟨k, name⟩⟩ t n := by
  rw [next_comment_of_group]
  cases name with
  | none => simp [next, feedGroup, AttributeGroup.feed, AttributeGroup.ended]
  | some name => simp [next, feedGroup, AttributeGroup.feed, h rfl, AttributeGroup.pass]

end ParamState

/-! ### Lists of parameters -/

namespace ParamList

/-- A comment in front of tokens that no name of an attribute goes on with is passed over. -/
theorem read_comment {s : ParamState} {ts : List Token} (c : TokenOf .comment)
    (h : ∀ g ∈ s.zone.group, g.naming = true →
      ∀ t ∈ ts.head?, AttributeGroup.isNamePart t.kind = false) :
    read s (c.val :: ts) = read s ts := by
  rw [read_next (s.endsAt_of_comment c)]
  obtain ⟨d, depth, group⟩ := s
  cases group with
  | none => rw [ParamState.next_comment_of_no_group rfl]
  | some g =>
      obtain ⟨k, name⟩ := g
      cases ts with
      | nil => rfl
      | cons t ts =>
          have hname : name.isSome → AttributeGroup.isNamePart t.kind = false := fun hname =>
            h _ rfl hname t rfl
          rw [read_next, read_next, ParamState.next_next_comment hname]
          · simp [ParamState.zone, Zone.endsAt, Zone.IsTop]
          · simp [ParamState.next_comment_of_group, ParamState.zone, Zone.endsAt, Zone.IsTop]

/-- Comments that are not noticed change neither the parameters nor the result behind them. -/
theorem map_ofList_of_commented (name : Token) {s : ParamState} {prev : Option Token}
    {ts us : List Token} (h : Commented (some s.zone) prev ts us) :
    (read s us).map (Signature.ofList name) = (read s ts).map (Signature.ofList name) := by
  generalize hz : some s.zone = z at h
  induction h generalizing s with
  | nil => rfl
  | comment c hides h ih =>
      subst hz
      rw [read_comment c (h.hides_name (hides _ rfl)), ih rfl]
  | @token z prev ts us t h ih =>
      subst hz
      rcases s.zone.cases_endsAt t.kind with hend | ⟨htop, hcomma | hclose⟩
      · rw [Option.bind_some, Zone.after_of_not_endsAt hend] at h
        have hnext : s.next t us.head? = s.next t ts.head? := by
          refine s.next_congr t fun hhead ht => h.marksReference_eq ?_ ht
          -- an ampersand in front of the default value stays there
          rw [ht]
          obtain ⟨hgroup, hvalue⟩ := hhead
          simpa [Zone.step, hgroup, hvalue] using ⟨hgroup, hvalue⟩
        rw [read_next hend, read_next hend, hnext]
        refine ih ?_
        rw [Option.bind_some, Zone.after_of_not_endsAt hend, ParamState.zone_next]
      · rw [read_comma htop hcomma, read_comma htop hcomma]
        cases s.draft.finish t.line with
        | error e => rfl
        | ok p =>
            have hzone : some ({} : ParamState).zone = (some s.zone).bind (·.after t.kind) := by
              rw [Option.bind_some, hcomma, Zone.after_comma htop]
              rfl
            have hrest := ih hzone
            simp only [Except.bind]
            rw [map_ofList_push, map_ofList_push, hrest]
      · rw [read_close htop hclose, read_close htop hclose]
        cases s.draft.finish t.line with
        | error e => rfl
        | ok p => simp [Except.map, Signature.ofList, h.resultTokens_eq]

end ParamList

/-! ### Declarations -/

namespace Layout.Opening

/-- **Comments that are not noticed change nothing.**  A declaration is read as it would be without
them, and where it cannot be read the error is the same. -/
theorem read_commented (o : Opening) {body commented : List Token}
    (h : Commented (some {}) (some o.paren.val) body commented) :
    Signature.read (o.tokens ++ commented) = Signature.read (o.tokens ++ body) := by
  rw [o.read_append, o.read_append]
  cases o.name? with
  | none => rfl
  | some name => exact ParamList.map_ofList_of_commented name h

/-- A comment that is none of documentation. -/
def remark : TokenOf .comment := ⟨⟨.comment, "/* c */".toList, 9⟩, rfl⟩

/-- In `#[A /* c */] array /* c */ &$x = /* c */ [/* c */] /* c */) /* c */ : /* c */ int` no
comment is noticed. -/
theorem read_commented_of_remarks :
    let group : Token := ⟨.attributeOpen, ['#', '['], 1⟩
    let name : Token := ⟨.identifier, ['A'], 1⟩
    let groupEnd : Token := ⟨.closeBracket, [']'], 1⟩
    let type : Token := ⟨.identifier, "array".toList, 1⟩
    let mark : Token := ⟨.ampersand, ['&'], 1⟩
    let var : Token := ⟨.dollarName, ['$', 'x'], 1⟩
    let equals : Token := ⟨.equals, ['='], 1⟩
    let valueOpen : Token := ⟨.openBracket, ['['], 1⟩
    let valueEnd : Token := ⟨.closeBracket, [']'], 1⟩
    let closing : Token := ⟨.closeParen, [')'], 1⟩
    let colon : Token := ⟨.colon, [':'], 1⟩
    let result : Token := ⟨.identifier, "int".toList, 1⟩
    let c : Token := remark.val
    let body :=
      [group, name, groupEnd, type, mark, var, equals, valueOpen, valueEnd, closing, colon, result]
    let commented :=
      [group, name, c, groupEnd, type, c, mark, var, equals, c, valueOpen, c, valueEnd, c, closing,
        c, colon, c, result]
    Commented (some {}) (some ofPlain.paren.val) body commented ∧
      Signature.read (ofPlain.tokens ++ commented) = Signature.read (ofPlain.tokens ++ body) ∧
      ((Signature.read (ofPlain.tokens ++ body)).toOption.map fun sig =>
        sig.params.map fun p => (p.name, p.byRef, p.attributes)) =
        some [(['x'], true, [['A']])] := by
  intro group name groupEnd type mark var equals valueOpen valueEnd closing colon result c body
    commented
  have h : Commented (some {}) (some ofPlain.paren.val) body commented :=
    .token group <| .token name <| .comment remark (by decide) <| .token groupEnd <| .token type <|
    .comment remark (by decide) <| .token mark <| .token var <| .token equals <|
    .comment remark (by decide) <| .token valueOpen <| .comment remark (by decide) <|
    .token valueEnd <| .comment remark (by decide) <| .token closing <|
    .comment remark (by decide) <| .token colon <| .comment remark (by decide) <| .token result .nil
  exact ⟨h, ofPlain.read_commented h, by decide +kernel⟩

/-- Comments can be noticed: behind the ampersand of `array &$x` a comment takes the mark of the
reference from the parameter, and in front of the name in `#[A] $x` it takes the attribute. -/
theorem not_read_of_noticed_comments :
    let type : Token := ⟨.identifier, "array".toList, 1⟩
    let mark : Token := ⟨.ampersand, ['&'], 1⟩
    let var : Token := ⟨.dollarName, ['$', 'x'], 1⟩
    let group : Token := ⟨.attributeOpen, ['#', '['], 1⟩
    let name : Token := ⟨.identifier, ['A'], 1⟩
    let groupEnd : Token := ⟨.closeBracket, [']'], 1⟩
    let closing : Token := ⟨.closeParen, [')'], 1⟩
    let c : Token := remark.val
    let params (body : List Token) :=
      (Signature.read (ofPlain.tokens ++ body)).toOption.map fun sig =>
        sig.params.map fun p => (p.name, p.byRef, p.attributes)
    (params [type, mark, var, closing] = some [(['x'], true, [])] ∧
        params [type, mark, c, var, closing] = some [(['x'], false, [])]) ∧
      params [group, name, groupEnd, var, closing] = some [(['x'], false, [['A']])] ∧
        params [group, c, name, groupEnd, var, closing] = some [(['x'], false, [])] := by
  exact ⟨⟨by decide +kernel, by decide +kernel⟩, by decide +kernel, by decide +kernel⟩

end Layout.Opening

end HintCheck
