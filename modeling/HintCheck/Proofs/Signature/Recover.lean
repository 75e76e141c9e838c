/-
**Every well-formed declaration is read as what it means.**

The reader of signatures goes over the tokens once, with a draft, a bracket depth and an open group
of attributes as its state.  This module says, piece by piece, how the state changes over the
tokens of the piece when it is outside of brackets and groups, which it is again behind the piece.

Main results:

* `HintCheck.Layout.read_clause`, `HintCheck.Layout.read_lead`, `HintCheck.Layout.read_type`,
  `HintCheck.Layout.read_default` — the state behind a piece of a parameter;
* `HintCheck.Layout.read_parameter` — a parameter leaves its own draft, and nothing else;
* `HintCheck.Layout.read_params` — a list of parameters is read item by item;
* `HintCheck.Layout.read_declaration` — **a declaration is read as the signature that it means**.
-/

import HintCheck.Proofs.Signature.Layout

set_option relaxedAutoImplicit false
set_option autoImplicit false

namespace HintCheck

namespace Layout

open TokenKind

variable {d : Draft} {rest : List Token}

/-! ### Steps -/

theorem read_group (n : Nat) (g : AttributeGroup) (t : Token) (ts : List Token) :
    ParamList.read ⟨d, n, some g⟩ (t :: ts) =
      ParamList.read (ParamState.feedGroup ⟨d, n, some g⟩ g t) ts := by
  rw [ParamList.read]

/-- Outside of groups, a token that neither ends a parameter nor the list is a step. -/
theorem read_step {n : Nat} {t : Token} (hclose : t.kind = .closeParen → n ≠ 0)
    (hcomma : t.kind = .comma → n ≠ 0) (ts : List Token) :
    ParamList.read ⟨d, n, none⟩ (t :: ts) =
      ParamList.read (ParamState.step ⟨d, n, none⟩ t ts.head?) ts := by
  have hclose : ¬(t.kind = .closeParen ∧ n = 0) := fun h => hclose h.1 h.2
  have hcomma : ¬(t.kind = .comma ∧ n = 0) := fun h => hcomma h.1 h.2
  rw [ParamList.read]
  simp [hclose, hcomma]

/-! ### Attributes -/

/-- A draft with more names of attributes. -/
def addNames (d : Draft) (names : List Text) : Draft :=
  { d with attributes := d.attributes ++ names }

theorem addNames_nil : addNames d [] = d := by simp [addNames]

theorem addNames_addNames (ns ms : List Text) :
    addNames (addNames d ns) ms = addNames d (ns ++ ms) := by
  simp [addNames]

/-- What a token of an open group does, when no name is being read. -/
theorem feedGroup_of_none (n : Nat) (k : Nat) (t : Token) :
    ParamState.feedGroup ⟨d, n, some ⟨k, none⟩⟩ ⟨k, none⟩ t =
      ⟨d, n, AttributeGroup.pass ⟨k, none⟩ t.kind⟩ := by
  simp [ParamState.feedGroup, AttributeGroup.feed]

theorem pass_closeBracket : AttributeGroup.pass ⟨1, none⟩ .closeBracket = none := rfl

theorem pass_comma : AttributeGroup.pass ⟨1, none⟩ .comma = some .start := rfl

/-- Inside the arguments of an attribute, only the depth changes. -/
theorem pass_of_deep {k n : Nat} (hn : 2 ≤ n) {kind : TokenKind}
    (hclose : kind.closes = true → k ≠ 0) :
    AttributeGroup.pass ⟨k + n, none⟩ kind = some ⟨kind.depthAfter k + n, none⟩ := by
  have hdeep : k + n ≠ 1 := by omega
  cases hc : kind.closes with
  | true =>
      have hk := hclose hc
      have ho : kind.opens = false := by cases kind <;> first | rfl | cases hc
      have hdepth : k + n - 1 = k - 1 + n := by omega
      have hpos : k - 1 + n ≠ 0 := by omega
      simp only [AttributeGroup.pass, hc, hdepth, hpos, TokenKind.depthAfter, ho, if_true, if_false,
        Bool.false_eq_true]
  | false =>
      cases ho : kind.opens with
      | true =>
          have hdepth : k + n + 1 = k + 1 + n := by omega
          simp [AttributeGroup.pass, hc, hdeep, TokenKind.depthAfter, ho, hdepth]
      | false => simp [AttributeGroup.pass, hc, hdeep, TokenKind.depthAfter, ho]

/-- Arguments leave the group at the depth in front of them. -/
theorem read_nested {ts : List Token} {k n : Nat} (hn : 2 ≤ n)
    (h : Nested (fun _ _ => True) k ts) (rest : List Token) :
    ParamList.read ⟨d, 0, some ⟨k + n, none⟩⟩ (ts ++ rest) =
      ParamList.read ⟨d, 0, some ⟨n, none⟩⟩ rest := by
  induction ts generalizing k with
  | nil =>
      have hk : k = 0 := h
      simp [hk]
  | cons t ts ih =>
      obtain ⟨_, hclose, h⟩ := h
      rw [List.cons_append, read_group, feedGroup_of_none, pass_of_deep hn hclose]
      exact ih h

/-- The parts of a name are put together. -/
theorem read_nameTokens {ts : List Token} (h : ∀ t ∈ ts, AttributeGroup.isNamePart t.kind = true)
    (k : Nat) (name : Text) :
    ParamList.read ⟨d, 0, some ⟨k, some name⟩⟩ (ts ++ rest) =
      ParamList.read ⟨d, 0, some ⟨k, some (name ++ spelled ts)⟩⟩ rest := by
  induction ts generalizing name with
  | nil => simp
  | cons t ts ih =>
      have ht := h t (by simp)
      have hfeed : ParamState.feedGroup ⟨d, 0, some ⟨k, some name⟩⟩ ⟨k, some name⟩ t =
          ⟨d, 0, some ⟨k, some (name ++ t.text)⟩⟩ := by
        simp [ParamState.feedGroup, AttributeGroup.feed, ht]
      rw [List.cons_append, read_group, hfeed, ih fun u hu => h u (by simp [hu])]
      simp

/-- The token behind the beginning of an attribute without a name adds nothing. -/
theorem read_behind_start {t : Token} (ht : AttributeGroup.isNamePart t.kind = false)
    (rest : List Token) :
    ParamList.read ⟨d, 0, some .start⟩ (t :: rest) =
      ParamList.read ⟨d, 0, AttributeGroup.pass ⟨1, none⟩ t.kind⟩ rest := by
  have hfeed : AttributeGroup.feed .start t = ([], AttributeGroup.pass ⟨1, none⟩ t.kind) := by
    simp only [AttributeGroup.feed, AttributeGroup.start, ht]
    rfl
  rw [read_group, ParamState.feedGroup, hfeed]
  simp

/-- The token behind a name completes it. -/
theorem read_behind_name {name : Text} (hname : name ≠ []) {t : Token}
    (ht : AttributeGroup.isNamePart t.kind = false) (k : Nat) :
    ParamList.read ⟨d, 0, some ⟨k, some name⟩⟩ (t :: rest) =
      ParamList.read ⟨addNames d [name], 0, AttributeGroup.pass ⟨k, none⟩ t.kind⟩ rest := by
  have hended : AttributeGroup.ended ⟨k, some name⟩ = [name] := by
    cases name with
    | nil => exact absurd rfl hname
    | cons c cs => rfl
  rw [read_group]
  simp only [ParamState.feedGroup, AttributeGroup.feed, ht, hended]
  rfl

theorem Attribute.name_ne_nil (a : Attribute) : a.name ≠ [] := by
  obtain ⟨t, ht⟩ := List.exists_mem_of_ne_nil _ a.ne_nil
  intro hnil
  have hall := List.flatMap_eq_nil_iff.1 hnil
  exact a.text_ne_nil t ht (hall t ht)

/-- An attribute adds its name; the token behind it is then read as in a group without a name. -/
theorem read_attribute (a : Attribute) {t : Token}
    (ht : AttributeGroup.isNamePart t.kind = false) (rest : List Token) :
    ParamList.read ⟨d, 0, some .start⟩ (a.tokens ++ t :: rest) =
      ParamList.read ⟨addNames d [a.name], 0, AttributeGroup.pass ⟨1, none⟩ t.kind⟩ rest := by
  rw [AttributeGroup.start, Attribute.tokens, List.append_assoc, read_nameTokens a.isNamePart]
  cases hargs : a.args with
  | none => exact read_behind_name a.name_ne_nil ht 1
  | some args =>
      have hopening := isNamePart_of_tokenOf args.opening rfl
      have hinner := read_nested (d := addNames d [a.name])
        (Nat.le_refl 2) args.nested (args.closing.val :: t :: rest)
      simp only [Option.toList_some, List.flatMap_cons, List.flatMap_nil, List.append_nil,
        Arguments.tokens, List.cons_append, List.append_assoc, List.nil_append]
      have hname : spelled a.nameTokens ≠ [] := a.name_ne_nil
      rw [read_behind_name hname hopening, args.opening.property]
      refine hinner.trans ?_
      rw [read_group, feedGroup_of_none, args.closing.property]
      exact (read_group 0 ⟨1, none⟩ t rest).trans (by rw [feedGroup_of_none])

/-- The attributes of a group add their names, and their end closes the group. -/
theorem read_attributes (l : Separated Attribute) (closing : TokenOf .closeBracket) :
    ParamList.read ⟨d, 0, some .start⟩ (l.tokens Attribute.tokens ++ closing.val :: rest) =
      ParamList.read ⟨addNames d (l.items.map Attribute.name), 0, none⟩ rest := by
  obtain ⟨front, last⟩ := l
  have hclosing := isNamePart_of_tokenOf closing rfl
  induction front generalizing d with
  | nil =>
      cases last with
      | none =>
          have hread := read_behind_start (d := d) hclosing rest
          rw [closing.property, pass_closeBracket] at hread
          simpa [Separated.tokens, Separated.items, addNames_nil] using hread
      | some a =>
          have hread := read_attribute (d := d) a hclosing rest
          rw [closing.property, pass_closeBracket] at hread
          simpa [Separated.tokens, Separated.items] using hread
  | cons p front ih =>
      obtain ⟨a, comma⟩ := p
      have hread := read_attribute (d := d) a (isNamePart_of_tokenOf comma rfl)
        (Separated.tokens Attribute.tokens ⟨front, last⟩ ++ closing.val :: rest)
      rw [comma.property, pass_comma] at hread
      rw [Separated.tokens_cons, List.append_assoc, List.cons_append, hread, ih, addNames_addNames]
      rfl

/-! ### What stands in front of a type -/

/-- A draft for which neither a type nor a variable nor a default value has been read. -/
structure Fresh (d : Draft) : Prop where
  typeText : d.typeText = []
  name : d.name = none
  default : d.default = none

/-- A draft with what pieces in front of a type add to it. -/
def addLead (d : Draft) (ps : List LeadPiece) : Draft :=
  { d with
    attributes := d.attributes ++ ps.flatMap LeadPiece.names
    doc := ((ps.filterMap LeadPiece.comment?).getLast?.map (·.token.val)).or d.doc
    promoted := d.promoted || ps.any LeadPiece.isModifier }

theorem addLead_nil : addLead d [] = d := by simp [addLead]

theorem addLead_cons (p : LeadPiece) (ps : List LeadPiece) :
    addLead (addLead d [p]) ps = addLead d (p :: ps) := by
  cases p with
  | comment c =>
      cases h : (ps.filterMap LeadPiece.comment?).getLast? <;>
        simp [addLead, List.getLast?_cons, h]
  | attributes c => simp [addLead]
  | modifier t h => simp [addLead]

theorem Fresh.addLead (hd : Fresh d) (ps : List LeadPiece) : Fresh (addLead d ps) :=
  ⟨hd.typeText, hd.name, hd.default⟩

/-- In front of the default value, a token that begins neither it nor a group of attributes changes
the draft, and parentheses change the depth. -/
theorem step_of_take (hd : d.default = none) {t : Token} (hequals : t.kind ≠ .equals)
    (hattribute : t.kind ≠ .attributeOpen) (n : Nat) (next : Option Token) :
    ParamState.step ⟨d, n, none⟩ t next =
      ⟨d.take t next, if t.kind = .openParen ∨ t.kind = .closeParen then t.kind.depthAfter n else n,
        none⟩ := by
  simp [ParamState.step, hd, hequals, hattribute]

/-- A token that is neither a bracket nor an ending changes the draft alone. -/
theorem read_take (hd : d.default = none) {t : Token}
    (ht : t.kind ∉ [equals, attributeOpen, openParen, closeParen, comma]) (ts : List Token) :
    ParamList.read ⟨d, 0, none⟩ (t :: ts) = ParamList.read ⟨d.take t ts.head?, 0, none⟩ ts := by
  simp only [List.mem_cons, List.not_mem_nil, or_false, not_or] at ht
  obtain ⟨hequals, hattribute, hopen, hclose, hcomma⟩ := ht
  rw [read_step (fun h => absurd h hclose) (fun h => absurd h hcomma),
    step_of_take hd hequals hattribute, if_neg (by simp [hopen, hclose])]

/-- The beginning of a group of attributes opens it. -/
theorem read_attributeOpen (hd : d.default = none) (t : TokenOf .attributeOpen)
    (rest : List Token) :
    ParamList.read ⟨d, 0, none⟩ (t.val :: rest) = ParamList.read ⟨d, 0, some .start⟩ rest := by
  have hkind := t.property
  have hstep : ∀ next, ParamState.step ⟨d, 0, none⟩ t.val next = ⟨d, 0, some .start⟩ := by
    intro next
    simp [ParamState.step, hd, hkind]
  rw [read_step (by simp [hkind]) (by simp [hkind]), hstep]

theorem read_clause (hd : Fresh d) (c : AttributeClause) :
    ParamList.read ⟨d, 0, none⟩ (c.tokens ++ rest) =
      ParamList.read ⟨addNames d c.names, 0, none⟩ rest := by
  rw [AttributeClause.tokens, List.cons_append, List.append_assoc, read_attributeOpen hd.default]
  exact read_attributes c.attributes c.closing

theorem read_piece (hd : Fresh d) (p : LeadPiece) :
    ParamList.read ⟨d, 0, none⟩ (p.tokens ++ rest) =
      ParamList.read ⟨addLead d [p], 0, none⟩ rest := by
  cases p with
  | attributes c =>
      rw [LeadPiece.tokens, read_clause hd]
      simp [addLead, addNames]
  | modifier t h =>
      have hkind := t.property
      have htake : d.take t.val rest.head? = addLead d [.modifier t h] := by
        simp [Draft.take, hkind, hd.typeText, hd.name, h, addLead]
      rw [LeadPiece.tokens, List.singleton_append, read_take hd.default (by simp [hkind]), htake]
  | comment c =>
      have hkind := c.token.property
      have htake : d.take c.token.val rest.head? = addLead d [.comment c] := by
        simp [Draft.take, hkind, addLead]
      rw [LeadPiece.tokens, List.singleton_append, read_take hd.default (by simp [hkind]), htake]

/-- The pieces in front of a type add what they say, whatever their order. -/
theorem read_lead (hd : Fresh d) (ps : List LeadPiece) :
    ParamList.read ⟨d, 0, none⟩ (ps.flatMap LeadPiece.tokens ++ rest) =
      ParamList.read ⟨addLead d ps, 0, none⟩ rest := by
  induction ps generalizing d with
  | nil => simp [addLead_nil]
  | cons p ps ih =>
      rw [List.flatMap_cons, List.append_assoc, read_piece hd, ih (hd.addLead [p]), addLead_cons]

/-! ### Types -/

theorem depthAfter_of_isTypePart {kind : TokenKind} (h : kind.isTypePart = true) (n : Nat) :
    (if kind = .openParen ∨ kind = .closeParen then kind.depthAfter n else n) =
      kind.depthAfter n := by
  cases kind <;> first | rfl | cases h

/-- What is no part of a type does not stand among its tokens. -/
theorem ne_of_isTypePart {kind k : TokenKind} (h : kind.isTypePart = true)
    (hk : k.isTypePart = false) : kind ≠ k := by
  rintro rfl
  rw [h] at hk
  cases hk

theorem marksReference_of_typeToken {t : Token} (ht : TypeToken t) :
    Draft.marksReference (some t) = false := by
  have hvar : t.kind ≠ .dollarName := ne_of_isTypePart ht.1 rfl
  have hellipsis : t.kind ≠ .ellipsis := ne_of_isTypePart ht.1 rfl
  simp [Draft.marksReference, hvar, hellipsis]

/-- A token of a type adds its text to the type. -/
theorem take_of_typeToken {t : Token} (ht : TypeToken t)
    (hfirst : d.typeText = [] → t.kind = .identifier → Draft.isPromotion t.text = false)
    {next : Option Token}
    (hnext : t.kind = .ampersand → Draft.marksReference next = false) :
    d.take t next = d.addType t.text := by
  obtain ⟨hkind, _, htext⟩ := ht
  unfold Draft.take
  cases hk : t.kind with
  | ampersand => simp [hnext hk, htext hk]
  | identifier =>
      cases htype : d.typeText with
      | nil => simp [hfirst htype hk]
      | cons c cs => simp
  | separator => rfl
  | question => rfl
  | bar => rfl
  | openParen => rfl
  | closeParen => rfl
  | _ =>
      rw [hk] at hkind
      cases hkind

/-- The tokens of a type add their texts to it. -/
theorem read_type {ts : List Token} {n : Nat} (hd : d.default = none)
    (h : Nested (fun _ => TypeToken) n ts)
    (hfirst : d.typeText = [] →
      ∀ t ∈ ts.head?, t.kind = .identifier → Draft.isPromotion t.text = false)
    (hlast : ∀ t ∈ ts.getLast?, t.kind = .ampersand → Draft.marksReference rest.head? = false) :
    ParamList.read ⟨d, n, none⟩ (ts ++ rest) =
      ParamList.read ⟨d.addType (spelled ts), 0, none⟩ rest := by
  induction ts generalizing d n with
  | nil =>
      have hn : n = 0 := h
      simp [hn, Draft.addType]
  | cons t ts ih =>
      obtain ⟨ht, hclose, h⟩ := h
      have hkind := ht.1
      have hnext : t.kind = .ampersand → Draft.marksReference (ts ++ rest).head? = false := by
        intro hk
        cases ts with
        | nil => exact hlast t rfl hk
        | cons u us => exact marksReference_of_typeToken h.1
      have htake := take_of_typeToken ht (fun hd => hfirst hd t rfl) hnext
      have hstep : ParamState.step ⟨d, n, none⟩ t (ts ++ rest).head? =
          ⟨d.addType t.text, t.kind.depthAfter n, none⟩ := by
        rw [step_of_take hd (ne_of_isTypePart hkind rfl) (ne_of_isTypePart hkind rfl), htake,
          depthAfter_of_isTypePart hkind]
      have hne : (d.addType t.text).typeText ≠ [] := by
        simp [Draft.addType, ht.2.1]
      have hrest := ih (d := d.addType t.text) hd h (fun hnil => absurd hnil hne) (by
        intro u hu
        refine hlast u ?_
        rw [List.getLast?_cons, Option.mem_def.1 hu]
        rfl)
      rw [List.cons_append,
        read_step ?_ fun hk => absurd hk (ne_of_isTypePart hkind rfl), hstep, hrest]
      · simp [Draft.addType]
      · intro hk
        exact hclose (by rw [hk]; rfl)

/-! ### Default values -/

/-- The tokens of a default value add their texts to it, whatever they are. -/
theorem read_default {ts : List Token} {n : Nat} (h : Nested DefaultToken n ts) (text : Text) :
    ParamList.read ⟨{ d with default := some text }, n, none⟩ (ts ++ rest) =
      ParamList.read ⟨{ d with default := some (text ++ spelled ts) }, 0, none⟩ rest := by
  induction ts generalizing n text with
  | nil =>
      have hn : n = 0 := h
      simp [hn]
  | cons t ts ih =>
      obtain ⟨⟨hcomment, hcomma⟩, hclose, h⟩ := h
      have hstep : ∀ next, ParamState.step ⟨{ d with default := some text }, n, none⟩ t next =
          ⟨{ d with default := some (text ++ t.text) }, t.kind.depthAfter n, none⟩ := by
        intro next
        simp [ParamState.step, hcomment]
      rw [List.cons_append, read_step ?_ hcomma, hstep, ih h]
      · simp
      · intro hk
        exact hclose (by rw [hk]; rfl)

/-! ### Parameters -/

/-- The draft that a parameter leaves. -/
def Parameter.draft (p : Parameter) : Draft where
  typeText := spelled p.type
  default := p.default.map fun d => spelled d.value
  name := some (p.var.val.text.dropWhile (· == '$'))
  line := p.var.val.line
  attributes := p.lead.flatMap LeadPiece.names
  doc := p.comment?.map (·.token.val)
  variadic := p.ellipsis.isSome
  byRef := p.byRef.isSome
  promoted := p.lead.any LeadPiece.isModifier

theorem Parameter.finish_draft (p : Parameter) (line : Nat) :
    p.draft.finish line = .ok (some p.param) := by
  have hdoc : p.draft.readDoc = .ok (p.comment?.map (·.block)) := by
    cases hc : p.comment? with
    | none => simp [Draft.readDoc, Parameter.draft, hc]
    | some c =>
        simp only [Draft.readDoc, Parameter.draft, hc, Option.map_some, c.read_eq]
        rfl
  have hname : p.draft.name = some (p.var.val.text.dropWhile (· == '$')) := rfl
  simp only [Draft.finish, hname, hdoc]
  simp [Except.map, Parameter.param, Parameter.draft, Option.map_map, Function.comp_def]

/-- An ampersand in front of the variable or the ellipsis marks a reference. -/
theorem read_byRef (hd : d.default = none) (o : Option (TokenOf .ampersand))
    (hnext : Draft.marksReference rest.head? = true) :
    ParamList.read ⟨d, 0, none⟩ (o.toList.map (·.val) ++ rest) =
      ParamList.read ⟨{ d with byRef := d.byRef || o.isSome }, 0, none⟩ rest := by
  cases o with
  | none => simp
  | some t =>
      have hkind := t.property
      simp only [Option.toList_some, List.map_cons, List.map_nil, List.singleton_append]
      rw [read_take hd (by simp [hkind])]
      simp [Draft.take, hkind, hnext]

theorem read_ellipsis (hd : d.default = none) (o : Option (TokenOf .ellipsis)) :
    ParamList.read ⟨d, 0, none⟩ (o.toList.map (·.val) ++ rest) =
      ParamList.read ⟨{ d with variadic := d.variadic || o.isSome }, 0, none⟩ rest := by
  cases o with
  | none => simp
  | some t =>
      have hkind := t.property
      simp only [Option.toList_some, List.map_cons, List.map_nil, List.singleton_append]
      rw [read_take hd (by simp [hkind])]
      simp [Draft.take, hkind]

theorem read_var (hd : d.default = none) (v : TokenOf .dollarName) :
    ParamList.read ⟨d, 0, none⟩ (v.val :: rest) =
      ParamList.read
        ⟨{ d with name := some (v.val.text.dropWhile (· == '$')), line := v.val.line }, 0, none⟩
        rest := by
  have hkind := v.property
  rw [read_take hd (by simp [hkind])]
  simp [Draft.take, hkind]

/-- The equals sign begins the default value, of which nothing gets into the type. -/
theorem read_defaultTokens (hd : d.default = none) (o : Option Default) :
    ParamList.read ⟨d, 0, none⟩ (o.toList.flatMap Default.tokens ++ rest) =
      ParamList.read ⟨{ d with default := o.map fun v => spelled v.value }, 0, none⟩ rest := by
  cases o with
  | none => simp [← hd]
  | some v =>
      have hkind := v.equals.property
      have hstep : ∀ next, ParamState.step ⟨d, 0, none⟩ v.equals.val next =
          ⟨{ d with default := some [] }, 0, none⟩ := by
        intro next
        simp [ParamState.step, hd, hkind]
      simp only [Option.toList_some, List.flatMap_cons, List.flatMap_nil, List.append_nil,
        Default.tokens, List.cons_append]
      rw [read_step (by simp [hkind]) (by simp [hkind]), hstep, read_default v.nested]
      simp

/-- What follows a type begins with a sign that an ampersand of the type does not stand in front of,
or with the ampersand of a reference. -/
theorem Parameter.marksReference_eq (p : Parameter) (tail : List Token) :
    Draft.marksReference (p.ellipsis.toList.map (·.val) ++ p.var.val :: tail).head? = true := by
  cases h : p.ellipsis with
  | none => simp [Draft.marksReference, p.var.property]
  | some t => simp [Draft.marksReference, t.property]

/-- **A parameter leaves its own draft**, and the reader outside of brackets and groups. -/
theorem read_parameter (p : Parameter) :
    ParamList.read {} (p.tokens ++ rest) = ParamList.read ⟨p.draft, 0, none⟩ rest := by
  have hfresh : Fresh ({} : Draft) := ⟨rfl, rfl, rfl⟩
  have hlast : ∀ tail, ∀ t ∈ p.type.getLast?, t.kind = .ampersand →
      Draft.marksReference (p.byRef.toList.map (·.val) ++
        (p.ellipsis.toList.map (·.val) ++ p.var.val :: tail)).head? = false := by
    intro tail t ht hk
    cases hr : p.byRef with
    | none => exact absurd hk (p.last hr t ht)
    | some r => simp [Draft.marksReference, r.property]
  simp only [Parameter.tokens, List.append_assoc, List.cons_append]
  rw [show ({} : ParamState) = ⟨{}, 0, none⟩ from rfl, read_lead hfresh,
    read_type (hfresh.addLead p.lead).default p.nested (fun _ => p.first) (hlast _),
    read_byRef rfl p.byRef (p.marksReference_eq _), read_ellipsis rfl, read_var rfl,
    read_defaultTokens rfl]
  simp [addLead, Draft.addType, Parameter.draft, Parameter.comment?]

/-! ### Lists of parameters -/

/-- A parameter with a comma behind it stands in front of the rest of the list. -/
theorem read_parameter_comma (p : Parameter) (comma : TokenOf .comma) :
    ParamList.read {} (p.tokens ++ comma.val :: rest) =
      (ParamList.read {} rest).map (ParamList.push (some p.param)) := by
  rw [read_parameter, ParamList.read]
  simp [comma.property, p.finish_draft]

/-- The list ends with a parameter, or without one behind a trailing comma. -/
theorem read_last (last : Option Parameter) (closing : TokenOf .closeParen) :
    ParamList.read {} (last.toList.flatMap Parameter.tokens ++ closing.val :: rest) =
      .ok ⟨last.toList.map Parameter.param, closing.val.line, rest⟩ := by
  cases last with
  | none =>
      simp only [Option.toList_none, List.flatMap_nil, List.nil_append]
      rw [ParamList.read]
      simp [closing.property, Draft.finish, Except.map]
  | some p =>
      simp only [Option.toList_some, List.flatMap_cons, List.flatMap_nil, List.append_nil]
      rw [read_parameter, ParamList.read]
      simp [closing.property, p.finish_draft, Except.map]

/-- A list of parameters is read item by item. -/
theorem read_params (l : Separated Parameter) (closing : TokenOf .closeParen)
    (rest : List Token) :
    ParamList.read {} (l.tokens Parameter.tokens ++ closing.val :: rest) =
      .ok ⟨l.items.map Parameter.param, closing.val.line, rest⟩ := by
  obtain ⟨front, last⟩ := l
  induction front with
  | nil => exact read_last last closing
  | cons p front ih =>
      obtain ⟨p, comma⟩ := p
      rw [Separated.tokens_cons, List.append_assoc, List.cons_append, read_parameter_comma, ih]
      rfl

/-! ### Declarations -/

/-- The tokens of a result are those of its type, up to the end of the head. -/
theorem resultTokens_eq (o : Option Result) {behind : List Token}
    (h : ∀ t ∈ behind.head?, Signature.endsHead t = true) :
    Signature.resultTokens (o.toList.flatMap Result.tokens ++ behind) =
      o.toList.flatMap Result.type := by
  have hbehind : behind.takeWhile (!Signature.endsHead ·) = [] := by
    cases behind with
    | nil => rfl
    | cons t ts => simp [h t rfl]
  cases o with
  | none => simp [Signature.resultTokens, hbehind]
  | some r =>
      have hcolon := r.colon.property
      have hhead : ∀ t ∈ r.tokens, (!Signature.endsHead t) = true := by
        intro t ht
        rcases List.mem_cons.1 ht with rfl | ht
        · simp [Signature.endsHead, hcolon]
        · have hsemicolon : t.kind ≠ .semicolon := ne_of_isTypePart (r.isTypePart t ht) rfl
          have hbrace : t.kind ≠ .openBrace := ne_of_isTypePart (r.isTypePart t ht) rfl
          simp [Signature.endsHead, hsemicolon, hbrace]
      have hfilter : r.type.filter (·.kind.isTypePart) = r.type :=
        List.filter_eq_self.2 r.isTypePart
      simp only [Option.toList_some, List.flatMap_cons, List.flatMap_nil, List.append_nil]
      rw [Signature.resultTokens, List.takeWhile_append_of_pos hhead, hbehind, List.append_nil,
        Result.tokens, List.filter_cons_of_neg (by simp [hcolon, TokenKind.isTypePart]), hfilter]

theorem readName_eq (name : TokenOf .identifier) (opening : TokenOf .openParen) :
    Signature.readName none (name.val :: opening.val :: rest) = .ok (name.val, rest) := by
  simp [Signature.readName, name.property, opening.property]

/-- **A declaration is read as the signature that it means.** -/
theorem read_declaration (d : Declaration) : Signature.read d.tokens = .ok d.signature := by
  have hbefore : ∀ t ∈ d.before, (t.kind != .function) = true := by
    intro t ht
    simpa using d.before_ne t ht
  have hparams := read_params d.params d.closing
    (d.result.toList.flatMap Result.tokens ++ d.behind)
  have hresult := resultTokens_eq d.result d.endsHead
  rw [Declaration.tokens, Signature.read, List.dropWhile_append_of_pos hbefore,
    List.dropWhile_cons_of_neg (by simp [d.keyword.property])]
  simp only [readName_eq, hparams, hresult, bind, Except.bind]
  rfl

/-- The declaration `function f(#[A(1, 2)] private ?C ...$x = [1, 2],): D` has one parameter. -/
theorem read_declaration_of_parameter :
    Signature.read
      [⟨.function, "function".toList, 1⟩, ⟨.identifier, ['f'], 1⟩, ⟨.openParen, ['('], 1⟩,
        ⟨.attributeOpen, ['#', '['], 2⟩, ⟨.identifier, ['A'], 2⟩, ⟨.openParen, ['('], 2⟩,
        ⟨.literal, ['1'], 2⟩, ⟨.comma, [','], 2⟩, ⟨.literal, ['2'], 2⟩, ⟨.closeParen, [')'], 2⟩,
        ⟨.closeBracket, [']'], 2⟩, ⟨.identifier, "private".toList, 3⟩, ⟨.question, ['?'], 3⟩,
        ⟨.identifier, ['C'], 3⟩, ⟨.ellipsis, ['.', '.', '.'], 3⟩, ⟨.dollarName, ['$', 'x'], 3⟩,
        ⟨.equals, ['='], 3⟩, ⟨.openBracket, ['['], 3⟩, ⟨.literal, ['1'], 3⟩, ⟨.comma, [','], 3⟩,
        ⟨.literal, ['2'], 3⟩, ⟨.closeBracket, [']'], 3⟩, ⟨.comma, [','], 3⟩,
        ⟨.closeParen, [')'], 4⟩, ⟨.colon, [':'], 4⟩, ⟨.identifier, ['D'], 5⟩] =
    .ok
      { line := 1
        name := ['f']
        params := [⟨3, ['x'], Ty.read ['?', 'C'], some (Ty.ofLiteral ['[', '1', ',', '2', ']']),
          [['A']], none, true, false, true⟩]
        result := Ty.read ['D']
        resultLine := 5 } := by
  have hinner : Nested (fun _ _ => True) 0
      [⟨.literal, ['1'], 2⟩, ⟨.comma, [','], 2⟩, ⟨.literal, ['2'], 2⟩] := by
    simp [Nested, TokenKind.depthAfter, TokenKind.opens, TokenKind.closes]
  have htype : Nested (fun _ => TypeToken) 0 [⟨.question, ['?'], 3⟩, ⟨.identifier, ['C'], 3⟩] := by
    simp [Nested, TypeToken, TokenKind.isTypePart, TokenKind.depthAfter, TokenKind.opens,
      TokenKind.closes]
  have hvalue : Nested DefaultToken 0 [⟨.openBracket, ['['], 3⟩, ⟨.literal, ['1'], 3⟩,
      ⟨.comma, [','], 3⟩, ⟨.literal, ['2'], 3⟩, ⟨.closeBracket, [']'], 3⟩] := by
    simp [Nested, DefaultToken, TokenKind.depthAfter, TokenKind.opens, TokenKind.closes]
  have hread := read_declaration
    { before := []
      keyword := ⟨⟨.function, "function".toList, 1⟩, rfl⟩
      name := ⟨⟨.identifier, ['f'], 1⟩, rfl⟩
      opening := ⟨⟨.openParen, ['('], 1⟩, rfl⟩
      params := ⟨[(
        { lead := [
            .attributes ⟨⟨⟨.attributeOpen, ['#', '['], 2⟩, rfl⟩,
              ⟨[], some ⟨[⟨.identifier, ['A'], 2⟩],
                some ⟨⟨⟨.openParen, ['('], 2⟩, rfl⟩, _, ⟨⟨.closeParen, [')'], 2⟩, rfl⟩, hinner⟩,
                by decide, by decide, by decide⟩⟩,
              ⟨⟨.closeBracket, [']'], 2⟩, rfl⟩⟩,
            .modifier ⟨⟨.identifier, "private".toList, 3⟩, rfl⟩ (by decide)]
          type := _
          byRef := none
          ellipsis := some ⟨⟨.ellipsis, ['.', '.', '.'], 3⟩, rfl⟩
          var := ⟨⟨.dollarName, ['$', 'x'], 3⟩, rfl⟩
          default := some ⟨⟨⟨.equals, ['='], 3⟩, rfl⟩, _, hvalue⟩
          nested := htype
          first := by simp
          last := by simp }, ⟨⟨.comma, [','], 3⟩, rfl⟩)], none⟩
      closing := ⟨⟨.closeParen, [')'], 4⟩, rfl⟩
      result := some ⟨⟨⟨.colon, [':'], 4⟩, rfl⟩, [⟨.identifier, ['D'], 5⟩], by decide⟩
      behind := []
      before_ne := by simp
      endsHead := by simp }
  -- the pieces of the tokens make one list
  simp only [Declaration.tokens, Separated.tokens, Parameter.tokens, LeadPiece.tokens,
    AttributeClause.tokens, Attribute.tokens, Arguments.tokens, Default.tokens, Result.tokens,
    List.flatMap_cons, List.flatMap_nil, List.map_cons, List.map_nil, Option.toList_some,
    Option.toList_none, List.nil_append, List.cons_append, List.append_nil,
    List.append_assoc] at hread
  exact hread

end Layout

end HintCheck
