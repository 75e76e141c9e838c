/-
**Zones of a list of parameters.**

While a list of parameters is read, much of the state is text that is put together.  Which tokens
end a parameter, and what becomes of the others, depends on less: on the bracket depth, on the open
group of attributes and on whether the default value has begun.  This much is a zone, and zones
follow from the kinds of the tokens alone.

Main definitions:

* `HintCheck.Zone`, `HintCheck.Zone.step` — a zone, and the zone behind a token in it;
* `HintCheck.Zone.endsAt` — whether a token ends the parameter;
* `HintCheck.Zone.after`, `HintCheck.Zone.behind` — the zone behind a token and behind tokens, when
  they do not close the list;
* `HintCheck.ParamState.zone` — the zone of a state of the reader;
* `HintCheck.ParamState.next` — the state behind a token that does not end the parameter.

Main results:

* `HintCheck.ParamState.zone_next` — the state moves from zone to zone as the kinds tell;
* `HintCheck.ParamState.next_congr` — what follows a token matters to an ampersand only;
* `HintCheck.ParamList.read_next`, `HintCheck.ParamList.read_comma`,
  `HintCheck.ParamList.read_close` — a list of parameters is read token by token.
-/

import HintCheck.Signature.Read

set_option relaxedAutoImplicit false
set_option autoImplicit false

namespace HintCheck

/-! ### Groups of attributes -/

/-- A place in an open group of attributes: its bracket depth, and whether a name can go on
there. -/
structure GroupZone where
  depth : Nat
  naming : Bool
  deriving DecidableEq, Repr

/-- The place of an open group, without the text of the name. -/
def AttributeGroup.zone (g : AttributeGroup) : GroupZone := ⟨g.depth, g.name.isSome⟩

/-- The place behind a token; none when the token closes the group. -/
def GroupZone.step (g : GroupZone) (kind : TokenKind) : Option GroupZone :=
  if g.naming && AttributeGroup.isNamePart kind then some g
  else (AttributeGroup.pass ⟨g.depth, none⟩ kind).map (·.zone)

/-- An open group moves as the kinds of the tokens tell. -/
theorem AttributeGroup.zone_feed (g : AttributeGroup) (t : Token) :
    (g.feed t).2.map zone = g.zone.step t.kind := by
  obtain ⟨depth, name⟩ := g
  cases name with
  | none => rfl
  | some name =>
      -- where the name ends, its text does not matter to the group
      have hpass : pass ⟨depth, some name⟩ t.kind = pass ⟨depth, none⟩ t.kind := rfl
      cases h : isNamePart t.kind with
      | true => simp [feed, GroupZone.step, zone, h]
      | false =>
          have hstep : GroupZone.step ⟨depth, true⟩ t.kind =
              (pass ⟨depth, none⟩ t.kind).map zone := by simp [GroupZone.step, h]
          simp only [feed, h, Bool.false_eq_true, if_false, hpass]
          exact hstep.symm

/-! ### Lists of parameters -/

/-- A place in a list of parameters. -/
structure Zone where
  /-- The depth of the brackets, apart from those in a group of attributes. -/
  depth : Nat := 0
  /-- The open group of attributes. -/
  group : Option GroupZone := none
  /-- Whether the default value of the parameter has begun. -/
  inValue : Bool := false
  deriving DecidableEq, Repr

namespace Zone

/-- Whether a token there is looked at as part of the parameter in front of its default value:
outside of groups of attributes, and before the default value has begun. -/
def IsHead (z : Zone) : Prop := z.group = none ∧ z.inValue = false

instance (z : Zone) : Decidable z.IsHead := inferInstanceAs (Decidable (_ ∧ _))

/-- Outside of all brackets and groups. -/
def IsTop (z : Zone) : Prop := z.group = none ∧ z.depth = 0

instance (z : Zone) : Decidable z.IsTop := inferInstanceAs (Decidable (_ ∧ _))

/-- Whether a token ends the parameter. -/
def endsAt (z : Zone) (kind : TokenKind) : Bool :=
  z.IsTop && (kind == .comma || kind == .closeParen)

/-- The place behind a token that does not end the parameter. -/
def step (z : Zone) (kind : TokenKind) : Zone :=
  match z.group with
  | some g => { z with group := g.step kind }
  | none =>
    if z.inValue then { z with depth := kind.depthAfter z.depth }
    else if kind = .equals ∧ z.depth = 0 then { z with inValue := true }
    else if kind = .attributeOpen then { z with group := some ⟨1, true⟩ }
    else if kind = .openParen ∨ kind = .closeParen then
      { z with depth := kind.depthAfter z.depth }
    else z

/-- The place behind a token; none when the token closes the list.  Behind a comma that ends a
parameter the next one begins. -/
def after (z : Zone) (kind : TokenKind) : Option Zone :=
  if z.endsAt kind then
    if kind = .closeParen then none else some {}
  else some (z.step kind)

/-- The place behind tokens; none when they close the list. -/
def behind (z : Zone) : List Token → Option Zone
  | [] => some z
  | t :: ts => (z.after t.kind).bind fun y => behind y ts

theorem endsAt_iff (z : Zone) (kind : TokenKind) :
    z.endsAt kind = true ↔ z.IsTop ∧ (kind = .comma ∨ kind = .closeParen) := by
  simp [endsAt]

/-- A token ends no parameter, or it is a comma or a parenthesis outside of all brackets. -/
theorem cases_endsAt (z : Zone) (kind : TokenKind) :
    z.endsAt kind = false ∨ z.IsTop ∧ (kind = .comma ∨ kind = .closeParen) := by
  rw [← endsAt_iff]
  cases z.endsAt kind <;> simp

theorem after_of_not_endsAt {z : Zone} {kind : TokenKind} (h : z.endsAt kind = false) :
    z.after kind = some (z.step kind) := by simp [after, h]

theorem after_comma {z : Zone} (h : z.IsTop) : z.after .comma = some {} := by
  simp [after, endsAt, h]

theorem after_closeParen {z : Zone} (h : z.IsTop) : z.after .closeParen = none := by
  simp [after, endsAt, h]

theorem behind_cons (z : Zone) (t : Token) (ts : List Token) :
    z.behind (t :: ts) = (z.after t.kind).bind fun y => y.behind ts := rfl

end Zone

/-! ### States of the reader -/

namespace ParamState

/-- The zone of a state: the state without the texts. -/
def zone (s : ParamState) : Zone :=
  { depth := s.depth, group := s.group.map (·.zone), inValue := s.draft.default.isSome }

@[simp] theorem zone_start : ({} : ParamState).zone = {} := rfl

/-- The state behind a token that does not end the parameter; `next` is the token that follows. -/
def next (s : ParamState) (t : Token) (next : Option Token) : ParamState :=
  match s.group with
  | some g => s.feedGroup g t
  | none => s.step t next

/-- What a token in front of the default value adds to a draft does not begin the default value. -/
theorem default_take (d : Draft) (t : Token) (next : Option Token) :
    (d.take t next).default = d.default := by
  unfold Draft.take
  split
  all_goals first | rfl | (split <;> rfl)

/-- The state moves from zone to zone as the kinds of the tokens tell. -/
theorem zone_next (s : ParamState) (t : Token) (n : Option Token) :
    (s.next t n).zone = s.zone.step t.kind := by
  obtain ⟨d, depth, group⟩ := s
  cases group with
  | some g =>
      have hfeed := g.zone_feed t
      simp [next, feedGroup, zone, Zone.step, hfeed]
  | none =>
      cases hd : d.default with
      | none =>
          by_cases hequals : t.kind = .equals ∧ depth = 0
          · simp [next, step, zone, Zone.step, hd, hequals]
          by_cases hattribute : t.kind = .attributeOpen
          · simp [next, step, zone, Zone.step, hd, hattribute, AttributeGroup.start,
              AttributeGroup.zone]
          by_cases hparen : t.kind = .openParen ∨ t.kind = .closeParen
          · simp [next, step, zone, Zone.step, hd, hequals, hattribute, hparen, default_take]
          · simp [next, step, zone, Zone.step, hd, hequals, hattribute, hparen, default_take]
      | some text =>
          by_cases hk : t.kind = .comment
          · simp [next, step, zone, Zone.step, hd, hk, TokenKind.depthAfter, TokenKind.opens,
              TokenKind.closes]
          · simp [next, step, zone, Zone.step, hd, hk]

/-- What follows a token matters only to an ampersand in front of the default value. -/
theorem next_congr (s : ParamState) (t : Token) {m n : Option Token}
    (h : s.zone.IsHead → t.kind = .ampersand → Draft.marksReference m = Draft.marksReference n) :
    s.next t m = s.next t n := by
  obtain ⟨d, depth, group⟩ := s
  cases group with
  | some g => rfl
  | none =>
      cases hd : d.default with
      | some text => simp [next, step, hd]
      | none =>
          have htake : d.take t m = d.take t n := by
            unfold Draft.take
            split
            case h_3 hk => rw [h (by simp [zone, Zone.IsHead, hd]) hk]
            all_goals rfl
          simp [next, step, hd, htake]

end ParamState

/-- An ampersand marks nothing in front of a token that is neither a variable nor an ellipsis. -/
theorem Draft.marksReference_of_ne {t : Token} (hvar : t.kind ≠ .dollarName)
    (hellipsis : t.kind ≠ .ellipsis) (ts : List Token) :
    marksReference (t :: ts).head? = false := by
  simp [marksReference, hvar, hellipsis]

/-! ### Reading token by token -/

namespace ParamList

variable {s : ParamState} {t : Token}

/-- A token that does not end the parameter moves the state. -/
theorem read_next (h : s.zone.endsAt t.kind = false) (ts : List Token) :
    read s (t :: ts) = read (s.next t ts.head?) ts := by
  rw [read]
  cases hg : s.group with
  | some g => simp [ParamState.next, hg]
  | none =>
      have htop : ¬(s.depth = 0 ∧ (t.kind = .comma ∨ t.kind = .closeParen)) := by
        simpa [Zone.endsAt, Zone.IsTop, ParamState.zone, hg] using h
      have hclose : ¬(t.kind = .closeParen ∧ s.depth = 0) := fun hk => htop ⟨hk.2, .inr hk.1⟩
      have hcomma : ¬(t.kind = .comma ∧ s.depth = 0) := fun hk => htop ⟨hk.2, .inl hk.1⟩
      simp [ParamState.next, hg, hclose, hcomma]

theorem eq_of_isTop (h : s.zone.IsTop) : s.group = none ∧ s.depth = 0 := by
  simpa [Zone.IsTop, ParamState.zone] using h

/-- A comma ends a parameter; the next one is read from nothing. -/
theorem read_comma (h : s.zone.IsTop) (ht : t.kind = .comma) (ts : List Token) :
    read s (t :: ts) = (s.draft.finish t.line).bind fun p => (read {} ts).map (push p) := by
  obtain ⟨hg, hd⟩ := eq_of_isTop h
  rw [read]
  cases s.draft.finish t.line <;> simp [hg, hd, ht, Except.bind]

/-- A parenthesis ends the last parameter and the list. -/
theorem read_close (h : s.zone.IsTop) (ht : t.kind = .closeParen) (ts : List Token) :
    read s (t :: ts) = (s.draft.finish t.line).map fun p => ⟨p.toList, t.line, ts⟩ := by
  obtain ⟨hg, hd⟩ := eq_of_isTop h
  rw [read]
  simp [hg, hd, ht]

end ParamList

end HintCheck
