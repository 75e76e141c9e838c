/-
**Parameters are read one by one.**

A comma outside of brackets and groups of attributes ends a parameter.  What is read behind it is
what would be read at the beginning of the list: nothing of the parameters in front of the comma
gets into those behind it, whatever the tokens are.

Main definitions:

* `HintCheck.ReadError.SameKind` — errors that differ in nothing but the line.

Main results:

* `HintCheck.ParamList.read_append` — tokens that do not close the list are read in front of the
  rest of it;
* `HintCheck.Layout.Opening.read_append_comma` — **the parameters in front of a comma and those
  behind it are read apart**, and an error in front of the comma decides.
-/

import HintCheck.Proofs.Signature.Opening
import HintCheck.Proofs.Signature.Zone

set_option relaxedAutoImplicit false
set_option autoImplicit false

namespace HintCheck

/-! ### Errors and their lines -/

/-- Errors that differ in nothing but the line. -/
inductive ReadError.SameKind : ReadError → ReadError → Prop
  | missingFunctionName : SameKind .missingFunctionName .missingFunctionName
  | missingParameterList : SameKind .missingParameterList .missingParameterList
  | missingParameterName (m n : Nat) : SameKind (.missingParameterName m) (.missingParameterName n)
  | emptyTagName (m n : Nat) : SameKind (.emptyTagName m) (.emptyTagName n)

theorem ReadError.SameKind.refl (e : ReadError) : e.SameKind e := by
  cases e <;> constructor

namespace Draft

/-- The line that ends a parameter is told by one error only, and does not matter else. -/
theorem finish_cases (d : Draft) :
    (∀ m n, d.finish m = d.finish n) ∨ ∀ m, d.finish m = .error (.missingParameterName m) := by
  unfold finish
  cases d.name with
  | some name => exact .inl fun _ _ => rfl
  | none =>
      cases d.typeText.isEmpty && d.default.isNone with
      | true => exact .inl fun _ _ => rfl
      | false => exact .inr fun _ => rfl

theorem finish_of_ok {d : Draft} {m : Nat} {p : Option Param} (h : d.finish m = .ok p) (n : Nat) :
    d.finish n = .ok p := by
  rcases d.finish_cases with hsame | herror
  · rw [hsame n m, h]
  · rw [herror m] at h
    cases h

theorem finish_of_error {d : Draft} {m : Nat} {e : ReadError} (h : d.finish m = .error e)
    (n : Nat) : ∃ e', d.finish n = .error e' ∧ e'.SameKind e ∧ (n = m → e' = e) := by
  rcases d.finish_cases with hsame | herror
  · exact ⟨e, by rw [hsame n m, h], .refl e, fun _ => rfl⟩
  · obtain rfl : ReadError.missingParameterName m = e :=
      Except.error.inj ((herror m).symm.trans h)
    exact ⟨_, herror n, .missingParameterName n m, fun hline => by rw [hline]⟩

end Draft

/-! ### Lists of parameters -/

/-- An ampersand that would mark nothing in the rest marks what it marks in the tokens alone. -/
theorem Draft.marksReference_head?_append {rest : List Token}
    (h : marksReference rest.head? = false) (ts : List Token) :
    marksReference (ts ++ rest).head? = marksReference ts.head? := by
  cases ts with
  | nil => exact h
  | cons t ts => rfl

namespace ParamList

/-- Tokens that do not close the list are read in front of the rest of it.  Either one of the
parameters that end among them cannot be read, or they leave these parameters and a state in the
zone that the kinds tell. -/
theorem read_append {s : ParamState} {ts : List Token} {z : Zone}
    (h : s.zone.behind ts = some z) :
    (∃ e, ∀ rest, Draft.marksReference rest.head? = false → read s (ts ++ rest) = .error e) ∨
      ∃ (ps : List Param) (s' : ParamState), s'.zone = z ∧
        ∀ rest, Draft.marksReference rest.head? = false →
          read s (ts ++ rest) = (read s' rest).map (prepend ps) := by
  induction ts generalizing s with
  | nil =>
      refine .inr ⟨[], s, Option.some_inj.1 h, fun rest _ => ?_⟩
      cases hread : read s rest <;> simp [hread, Except.map, prepend_nil]
  | cons t ts ih =>
      rw [Zone.behind_cons] at h
      rcases s.zone.cases_endsAt t.kind with hend | ⟨htop, hcomma | hclose⟩
      · rw [Zone.after_of_not_endsAt hend, Option.bind_some,
          ← ParamState.zone_next s t ts.head?] at h
        have hnext : ∀ rest, Draft.marksReference rest.head? = false →
            read s (t :: ts ++ rest) = read (s.next t ts.head?) (ts ++ rest) := by
          intro rest hrest
          rw [List.cons_append, read_next hend,
            s.next_congr t fun _ _ => Draft.marksReference_head?_append hrest ts]
        rcases ih h with ⟨e, herr⟩ | ⟨ps, s', hs', hread⟩
        · exact .inl ⟨e, fun rest hrest => by rw [hnext rest hrest, herr rest hrest]⟩
        · exact .inr ⟨ps, s', hs', fun rest hrest => by rw [hnext rest hrest, hread rest hrest]⟩
      · rw [hcomma, Zone.after_comma htop, Option.bind_some] at h
        have hnext : ∀ rest, read s (t :: ts ++ rest) =
            (s.draft.finish t.line).bind fun p => (read {} (ts ++ rest)).map (push p) :=
          fun rest => read_comma htop hcomma (ts ++ rest)
        cases hfinish : s.draft.finish t.line with
        | error e => exact .inl ⟨e, fun rest _ => by rw [hnext, hfinish]; rfl⟩
        | ok p =>
            rcases ih (s := {}) h with ⟨e, herr⟩ | ⟨ps, s', hs', hread⟩
            · exact .inl ⟨e, fun rest hrest => by rw [hnext, hfinish, herr rest hrest]; rfl⟩
            · refine .inr ⟨p.toList ++ ps, s', hs', fun rest hrest => ?_⟩
              rw [hnext, hfinish, hread rest hrest]
              cases read s' rest with
              | error e => rfl
              | ok l => exact congrArg Except.ok (prepend_prepend p.toList ps l)
      · rw [hclose, Zone.after_closeParen htop] at h
        cases h

end ParamList

/-! ### Commas -/

namespace Layout

namespace Opening

/-- **The parameters in front of a comma and those behind it are read apart.**  Let tokens behind an
opening lead outside of all brackets and groups without closing the list.  If the list cannot be
read when it is closed there, it cannot be read with a comma there either, whatever follows; the
error is of the same kind, and the same one when the comma is on the line of the parenthesis.
Otherwise the parameters are put in front of those that the tokens behind the comma make by
themselves. -/
theorem read_append_comma (o : Opening) {front : List Token} {z : Zone}
    (hfront : Zone.behind {} front = some z) (hz : z.IsTop) (comma : TokenOf .comma)
    (closing : TokenOf .closeParen) (back : List Token) :
    (∀ e, Signature.read (o.tokens ++ front ++ [closing.val]) = .error e →
      ∃ e', Signature.read (o.tokens ++ front ++ comma.val :: back) = .error e' ∧
        e'.SameKind e ∧ (comma.val.line = closing.val.line → e' = e)) ∧
    ∀ sig, Signature.read (o.tokens ++ front ++ [closing.val]) = .ok sig →
      Signature.read (o.tokens ++ front ++ comma.val :: back) =
        (Signature.read (o.tokens ++ back)).map (Signature.prepend sig.params) := by
  simp only [List.append_assoc, read_append]
  cases o.name? with
  | none =>
      exact ⟨fun e he => ⟨e, he, .refl e, fun _ => rfl⟩, fun sig hsig => (by cases hsig)⟩
  | some name =>
      have hclosing : Draft.marksReference [closing.val].head? = false :=
        Draft.marksReference_of_ne (by simp [closing.property]) (by simp [closing.property]) []
      have hcomma : Draft.marksReference (comma.val :: back).head? = false :=
        Draft.marksReference_of_ne (by simp [comma.property]) (by simp [comma.property]) back
      rcases ParamList.read_append (s := {}) hfront with ⟨e, herr⟩ | ⟨ps, s, hs, hread⟩
      · rw [herr _ hclosing, herr _ hcomma]
        exact ⟨fun e' he' => ⟨e', he', .refl e', fun _ => rfl⟩, fun sig hsig => (by cases hsig)⟩
      · have htop : s.zone.IsTop := hs ▸ hz
        rw [hread _ hclosing, hread _ hcomma, ParamList.read_close htop closing.property,
          ParamList.read_comma htop comma.property]
        cases hfinish : s.draft.finish closing.val.line with
        | error e =>
            obtain ⟨e', he', hkind, hline⟩ := Draft.finish_of_error hfinish comma.val.line
            refine ⟨fun e₀ he₀ => ?_, fun sig hsig => (by cases hsig)⟩
            obtain rfl : e = e₀ := Except.error.inj he₀
            exact ⟨e', by rw [he']; rfl, hkind, hline⟩
        | ok p =>
            refine ⟨fun e he => (by cases he), fun sig hsig => ?_⟩
            obtain rfl := Except.ok.inj hsig
            rw [Draft.finish_of_ok hfinish]
            cases ParamList.read {} back with
            | error e => rfl
            | ok l =>
                exact congrArg (fun l => Except.ok (Signature.ofList name l))
                  (ParamList.prepend_prepend ps p.toList l)

/-- The commas of an attribute and of a default value are inside of brackets; the one behind them
ends the parameter. -/
theorem read_append_comma_of_brackets :
    let front : List Token :=
      [⟨.attributeOpen, ['#', '['], 1⟩, ⟨.identifier, ['A'], 1⟩, ⟨.comma, [','], 1⟩,
        ⟨.identifier, ['B'], 1⟩, ⟨.closeBracket, [']'], 1⟩, ⟨.identifier, "array".toList, 2⟩,
        ⟨.dollarName, ['$', 'x'], 2⟩, ⟨.equals, ['='], 2⟩, ⟨.openBracket, ['['], 2⟩,
        ⟨.literal, ['1'], 2⟩, ⟨.comma, [','], 2⟩, ⟨.closeBracket, [']'], 2⟩]
    let back : List Token :=
      [⟨.question, ['?'], 3⟩, ⟨.identifier, ['C'], 3⟩, ⟨.dollarName, ['$', 'y'], 3⟩,
        ⟨.closeParen, [')'], 4⟩]
    let x : Param :=
      { line := 2, name := ['x'], ty := Ty.read "array".toList,
        default := some (Ty.ofLiteral "[1,]".toList), attributes := [['A'], ['B']], doc := none,
        variadic := false, byRef := false, promoted := false }
    Zone.behind {} front = some { inValue := true } ∧
      Signature.read (ofPlain.tokens ++ front ++ [⟨.closeParen, [')'], 2⟩]) =
        .ok { line := 1, name := ['f'], params := [x], result := Ty.read [], resultLine := 2 } ∧
      Signature.read (ofPlain.tokens ++ front ++ ⟨.comma, [','], 2⟩ :: back) =
        (Signature.read (ofPlain.tokens ++ back)).map (Signature.prepend [x]) := by
  intro front back x
  have hzone : Zone.behind {} front = some { inValue := true } := by decide
  have hread : Signature.read (ofPlain.tokens ++ front ++ [⟨.closeParen, [')'], 2⟩]) =
      .ok { line := 1, name := ['f'], params := [x], result := Ty.read [], resultLine := 2 } := rfl
  exact ⟨hzone, hread,
    (ofPlain.read_append_comma hzone (by decide) ⟨⟨.comma, [','], 2⟩, rfl⟩
      ⟨⟨.closeParen, [')'], 2⟩, rfl⟩ back).2 _ hread⟩

end Opening

end Layout

end HintCheck
