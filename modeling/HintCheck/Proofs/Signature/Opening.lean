/-
**What stands in front of the parameters.**

A declaration is read from its first keyword of a function on.  The tokens from there to the next
opening parenthesis hold its name, and the list of parameters is read from what is behind the
parenthesis.

Main definitions:

* `HintCheck.Signature.nameTokens`, `HintCheck.Signature.listTokens` — the tokens of both parts;
* `HintCheck.Signature.name?` — the name of a declaration;
* `HintCheck.Signature.ofList` — the signature that a name and a list of parameters make;
* `HintCheck.ParamList.prepend`, `HintCheck.Signature.prepend` — parameters put in front;
* `HintCheck.Layout.Opening` — tokens up to the parenthesis that opens the list.

Main results:

* `HintCheck.Signature.read_eq` — a signature is the name and what is read behind the parenthesis;
* `HintCheck.Layout.Opening.read_append` — the same for tokens that begin with an opening.
-/

import HintCheck.Proofs.Signature.Layout

set_option relaxedAutoImplicit false
set_option autoImplicit false

namespace HintCheck

namespace Signature

/-! ### Parts of a declaration -/

/-- The tokens behind the first keyword of a function. -/
def behindKeyword (ts : List Token) : List Token := (ts.dropWhile (·.kind != .function)).tail

/-- The tokens between the keyword and the parenthesis that opens the parameters. -/
def nameTokens (ts : List Token) : List Token :=
  (behindKeyword ts).takeWhile (·.kind != .openParen)

/-- The tokens from the parenthesis that opens the parameters on. -/
def listTokens (ts : List Token) : List Token :=
  (behindKeyword ts).dropWhile (·.kind != .openParen)

/-- The last identifier among tokens. -/
def lastIdentifier? (ts : List Token) : Option Token :=
  (ts.filter (·.kind == .identifier)).getLast?

/-- The token that names a declaration. -/
def name? (ts : List Token) : Option Token := lastIdentifier? (nameTokens ts)

theorem lastIdentifier?_eq_none_iff (ts : List Token) :
    lastIdentifier? ts = none ↔ ∀ t ∈ ts, t.kind ≠ .identifier := by
  simp [lastIdentifier?]

theorem lastIdentifier?_cons (t : Token) (ts : List Token) :
    lastIdentifier? (t :: ts) =
      (lastIdentifier? ts).or (if t.kind = .identifier then some t else none) := by
  unfold lastIdentifier?
  by_cases h : t.kind = .identifier
  · simp [h, List.getLast?_cons]
  · simp [h]

/-! ### Reading -/

/-- The signature that a name and a list of parameters make, with the result that is declared behind
the list. -/
def ofList (name : Token) (l : ParamList) : Signature :=
  let result := resultTokens l.rest
  { line := name.line
    name := name.text
    params := l.params
    result := Ty.read (result.flatMap (·.text))
    resultLine := (result.getLast?.map (·.line)).getD l.endLine }

/-- The name is the last identifier in front of the first parenthesis. -/
theorem readName_eq_match (name : Option Token) (ts : List Token) :
    readName name ts =
      match (lastIdentifier? (ts.takeWhile (·.kind != .openParen))).or name,
        ts.dropWhile (·.kind != .openParen) with
      | none, _ => .error .missingFunctionName
      | some _, [] => .error .missingParameterList
      | some n, _ :: rest => .ok (n, rest) := by
  induction ts generalizing name with
  | nil => cases name <;> rfl
  | cons t ts ih =>
      unfold readName
      by_cases hopen : t.kind = .openParen
      · cases name <;> simp [hopen, lastIdentifier?]
      · have hne : (t.kind != .openParen) = true := by simp [hopen]
        rw [List.takeWhile_cons_of_pos (by exact hne), List.dropWhile_cons_of_pos (by exact hne),
          lastIdentifier?_cons, Option.or_assoc]
        by_cases hname : t.kind = .identifier
        · simp [hname, ih]
        · simp [hname, hopen, ih]

/-- **A signature is the name and the list of parameters behind its parenthesis.** -/
theorem read_eq (ts : List Token) :
    read ts =
      match name? ts, listTokens ts with
      | none, _ => .error .missingFunctionName
      | some _, [] => .error .missingParameterList
      | some n, _ :: body => (ParamList.read {} body).map (ofList n) := by
  unfold read name? listTokens nameTokens behindKeyword
  cases ts.dropWhile (·.kind != .function) with
  | nil => rfl
  | cons keyword ts =>
      simp only [readName_eq_match, Option.or_none, List.tail_cons]
      cases lastIdentifier? (ts.takeWhile (·.kind != .openParen)) with
      | none => rfl
      | some n =>
          cases ts.dropWhile (·.kind != .openParen) with
          | nil => rfl
          | cons paren body =>
              simp only [bind, Except.bind]
              cases ParamList.read {} body <;> rfl

end Signature

/-! ### Parameters in front -/

/-- A list with parameters in front. -/
def ParamList.prepend (ps : List Param) (l : ParamList) : ParamList :=
  { l with params := ps ++ l.params }

/-- A signature with parameters in front. -/
def Signature.prepend (ps : List Param) (sig : Signature) : Signature :=
  { sig with params := ps ++ sig.params }

namespace ParamList

theorem prepend_nil (l : ParamList) : prepend [] l = l := rfl

theorem prepend_prepend (ps qs : List Param) (l : ParamList) :
    prepend ps (prepend qs l) = prepend (ps ++ qs) l := by
  simp [prepend]

/-- A parameter in front of a list is one in front of the signature. -/
theorem map_ofList_push (name : Token) (p : Option Param) (r : Except ReadError ParamList) :
    (r.map (push p)).map (Signature.ofList name) =
      (r.map (Signature.ofList name)).map (Signature.prepend p.toList) := by
  cases r <;> rfl

end ParamList

/-! ### Openings -/

namespace Layout

/-- The tokens up to the parenthesis that opens the parameters. -/
structure Opening where
  before : List Token
  keyword : TokenOf .function
  between : List Token
  paren : TokenOf .openParen
  before_ne : ∀ t ∈ before, t.kind ≠ .function
  between_ne : ∀ t ∈ between, t.kind ≠ .openParen

namespace Opening

def tokens (o : Opening) : List Token :=
  o.before ++ o.keyword.val :: (o.between ++ [o.paren.val])

/-- The token that names the declaration. -/
def name? (o : Opening) : Option Token := Signature.lastIdentifier? o.between

theorem behindKeyword_append (o : Opening) (body : List Token) :
    Signature.behindKeyword (o.tokens ++ body) = o.between ++ o.paren.val :: body := by
  have hbefore : ∀ t ∈ o.before, (t.kind != .function) = true := by
    intro t ht
    simpa using o.before_ne t ht
  rw [Signature.behindKeyword, tokens, List.append_assoc, List.dropWhile_append_of_pos hbefore,
    List.cons_append, List.dropWhile_cons_of_neg (by simp [o.keyword.property])]
  simp

/-- A declaration is read behind its opening. -/
theorem read_append (o : Opening) (body : List Token) :
    Signature.read (o.tokens ++ body) =
      match o.name? with
      | none => .error .missingFunctionName
      | some n => (ParamList.read {} body).map (Signature.ofList n) := by
  have hbetween : ∀ t ∈ o.between, (t.kind != .openParen) = true := by
    intro t ht
    simpa using o.between_ne t ht
  have hname : Signature.nameTokens (o.tokens ++ body) = o.between := by
    rw [Signature.nameTokens, behindKeyword_append, List.takeWhile_append_of_pos hbetween]
    simp [o.paren.property]
  have hlist : Signature.listTokens (o.tokens ++ body) = o.paren.val :: body := by
    rw [Signature.listTokens, behindKeyword_append, List.dropWhile_append_of_pos hbetween]
    simp [o.paren.property]
  rw [Signature.read_eq, Signature.name?, hname, hlist, name?]
  cases Signature.lastIdentifier? o.between <;> rfl

/-- The opening of a function with nothing in front of the keyword. -/
def ofPlain : Opening where
  before := []
  keyword := ⟨⟨.function, "function".toList, 1⟩, rfl⟩
  between := [⟨.identifier, ['f'], 1⟩]
  paren := ⟨⟨.openParen, ['('], 1⟩, rfl⟩
  before_ne := by decide
  between_ne := by decide

end Opening

end Layout

end HintCheck
