/-
**Why a signature cannot be read.**

A declaration that cannot be read has no name, no complete list of parameters, or a faulty
parameter.  Which of these is reported, and for which line, follows from the tokens: the name comes
first, then the parameters in their order, and the end of the list last.  A parameter is faulty when
it has a type or a default value but no variable, or when its last documentation comment cannot be
read.

Main definitions:

* `HintCheck.Mark`, `HintCheck.Stretch` — the tokens of a parameter that can make it faulty, and the
  token that ends it;
* `HintCheck.stretches` — the parameters of a list;
* `HintCheck.Stretch.Fault`, `HintCheck.FirstFault` — what is wrong with a parameter, and with the
  first faulty one;
* `HintCheck.Signature.Nameless`, `HintCheck.Signature.Fault` — what is wrong with a declaration.

Main results:

* `HintCheck.ParamState.tracks_next`, `HintCheck.Draft.Tracks.finish_eq_error_iff` — what the reader
  knows of a parameter is what its tokens tell, and so is what is wrong with it;
* `HintCheck.ParamList.read_eq_error_iff` — the errors of a list of parameters;
* `HintCheck.Signature.read_eq_error_iff_fault` — **the errors are the faults of the tokens**.
-/

import HintCheck.Proofs.Doc.TagLines
import HintCheck.Proofs.Signature.Opening
import HintCheck.Proofs.Signature.Zone
import Mathlib.Data.List.TakeWhile

set_option relaxedAutoImplicit false
set_option autoImplicit false

namespace HintCheck

/-! ### Parameters as tokens -/

/-- A token of a parameter outside of groups of attributes and in front of the default value. -/
structure Mark where
  token : Token
  /-- The token that follows. -/
  next : Option Token
  /-- The bracket depth in front of the token. -/
  depth : Nat

/-- The mark that a token leaves in a zone, if any. -/
def Zone.marks (z : Zone) (t : Token) (next : Option Token) : List Mark :=
  if z.IsHead then [⟨t, next, z.depth⟩] else []

theorem Zone.marks_of_isHead {z : Zone} (h : z.IsHead) (t : Token) (next : Option Token) :
    z.marks t next = [⟨t, next, z.depth⟩] := if_pos h

theorem Zone.marks_of_not_isHead {z : Zone} (h : ¬z.IsHead) (t : Token) (next : Option Token) :
    z.marks t next = [] := if_neg h

/-- A parameter as the tokens spell it. -/
structure Stretch where
  marks : List Mark
  /-- The comma or the parenthesis that ends the parameter. -/
  ending : Token

/-- The parameters that end among tokens; `ms` are the marks of the first one so far. -/
def stretches (z : Zone) (ms : List Mark) : List Token → List Stretch
  | [] => []
  | t :: ts =>
    if z.endsAt t.kind then
      ⟨ms, t⟩ :: if t.kind = .closeParen then [] else stretches {} [] ts
    else stretches (z.step t.kind) (ms ++ z.marks t ts.head?) ts

/-! ### Faults of a parameter -/

namespace Mark

def IsVariable (m : Mark) : Prop := m.token.kind = .dollarName

/-- The equals sign that begins the default value. -/
def BeginsDefault (m : Mark) : Prop := m.token.kind = .equals ∧ m.depth = 0

/-- A token that is text of a type, where no variable is in front of it.  A modifier alone is
none. -/
def SpellsType (m : Mark) : Prop :=
  match m.token.kind with
  | .ampersand => Draft.marksReference m.next = false
  | .identifier => m.token.text ≠ [] ∧ Draft.isPromotion m.token.text = false
  | kind => kind.isTypePart = true ∧ m.token.text ≠ []

end Mark

/-- The last documentation comment among marks. -/
def lastComment? (ms : List Mark) : Option Token :=
  ((ms.map (·.token)).filter (·.kind == .docComment)).getLast?

theorem lastComment?_append_singleton (ms : List Mark) (m : Mark) :
    lastComment? (ms ++ [m]) =
      if m.token.kind = .docComment then some m.token else lastComment? ms := by
  by_cases h : m.token.kind = .docComment
  · simp [lastComment?, h]
  · simp [lastComment?, h]

/-- What is wrong with a parameter. -/
inductive Stretch.Fault (p : Stretch) : ReadError → Prop
  /-- There is no variable, although there is a type or a default value. -/
  | nameless (novar : ∀ m ∈ p.marks, ¬m.IsVariable)
      (given : ∃ m ∈ p.marks, m.SpellsType ∨ m.BeginsDefault) :
      Fault p (.missingParameterName p.ending.line)
  /-- The last comment has a tag without a name. -/
  | comment {c : Token} {line : Nat} (var : ∃ m ∈ p.marks, m.IsVariable)
      (last : lastComment? p.marks = some c)
      (h : DocBlock.read c.text c.line = .error (.emptyTagName line)) : Fault p (.emptyTagName line)

/-- A parameter without any fault. -/
def Stretch.IsSound (p : Stretch) : Prop := ∀ e, ¬p.Fault e

/-- What is wrong with the first faulty parameter. -/
inductive FirstFault : List Stretch → ReadError → Prop
  | here {p : Stretch} {ps : List Stretch} {e : ReadError} (h : p.Fault e) : FirstFault (p :: ps) e
  | later {p : Stretch} {ps : List Stretch} {e : ReadError} (sound : p.IsSound)
      (h : FirstFault ps e) : FirstFault (p :: ps) e

/-! ### What the reader knows of a parameter -/

namespace Draft

variable {d : Draft} {t : Token} {n : Option Token}

theorem isSome_name_take :
    (d.take t n).name.isSome = true ↔ d.name.isSome = true ∨ t.kind = .dollarName := by
  cases hk : t.kind <;> simp only [take, hk]
  case identifier => split <;> simp [addType]
  case ampersand => split <;> simp [addType]
  all_goals simp [addType]

theorem doc_take : (d.take t n).doc = if t.kind = .docComment then some t else d.doc := by
  cases hk : t.kind <;> simp only [take, hk]
  case identifier => split <;> simp [addType]
  case ampersand => split <;> simp [addType]
  all_goals simp [addType]

/-- As long as there is no variable, the text of the type begins with what is no modifier. -/
theorem typeText_take_ne_nil (hname : d.name = none) (depth : Nat) :
    (d.take t n).typeText ≠ [] ↔ d.typeText ≠ [] ∨ (Mark.mk t n depth).SpellsType := by
  by_cases hd : d.typeText = []
  · cases hk : t.kind <;> simp only [take, Mark.SpellsType, hk]
    case identifier => cases hp : isPromotion t.text <;> simp [addType, hd, hname]
    case ampersand => cases marksReference n <;> simp [addType, hd]
    all_goals simp [addType, hd, TokenKind.isTypePart]
  · cases hk : t.kind <;> simp only [take, Mark.SpellsType, hk]
    case ampersand => cases marksReference n <;> simp [addType, hd]
    all_goals simp [addType, hd]

theorem name_of_name_take (h : (d.take t n).name = none) : d.name = none := by
  cases hd : d.name with
  | none => rfl
  | some name =>
      have hsome := (isSome_name_take (d := d) (t := t) (n := n)).2 (.inl (by rw [hd]; rfl))
      rw [h] at hsome
      cases hsome

/-- A draft tells of the marks of a parameter what can make it faulty. -/
structure Tracks (d : Draft) (ms : List Mark) : Prop where
  name : d.name.isSome = true ↔ ∃ m ∈ ms, m.IsVariable
  type : d.name = none → (d.typeText ≠ [] ↔ ∃ m ∈ ms, m.SpellsType)
  default : d.default.isSome = true ↔ ∃ m ∈ ms, m.BeginsDefault
  doc : d.doc = lastComment? ms

namespace Tracks

theorem start : ({} : Draft).Tracks [] := ⟨by simp, fun _ => by simp, by simp, rfl⟩

variable {ms : List Mark}

theorem exists_mem_append_singleton {P : Mark → Prop} {m : Mark} :
    (∃ x ∈ ms ++ [m], P x) ↔ (∃ x ∈ ms, P x) ∨ P m := by
  simp [or_and_right, exists_or]

/-- A token in front of the default value leaves its mark. -/
theorem take (h : d.Tracks ms) (hd : d.default = none) {depth : Nat}
    (hequals : ¬(t.kind = .equals ∧ depth = 0)) : (d.take t n).Tracks (ms ++ [⟨t, n, depth⟩]) where
  name := by
    rw [exists_mem_append_singleton, isSome_name_take]
    exact or_congr h.name .rfl
  type hname := by
    have hbefore := name_of_name_take hname
    rw [exists_mem_append_singleton, typeText_take_ne_nil hbefore depth]
    exact or_congr (h.type hbefore) .rfl
  default := by
    rw [exists_mem_append_singleton, ParamState.default_take, ← h.default]
    simp [hd, Mark.BeginsDefault, hequals]
  doc := by rw [lastComment?_append_singleton, doc_take, h.doc]

/-- The equals sign leaves its mark too. -/
theorem equals (h : d.Tracks ms) (ht : t.kind = .equals) :
    Tracks { d with default := some [] } (ms ++ [⟨t, n, 0⟩]) where
  name := by
    rw [exists_mem_append_singleton, h.name]
    simp [Mark.IsVariable, ht]
  type hname := by
    rw [exists_mem_append_singleton, h.type hname]
    simp [Mark.SpellsType, ht, TokenKind.isTypePart]
  default := by
    rw [exists_mem_append_singleton]
    simp [Mark.BeginsDefault, ht]
  doc := by simp [lastComment?_append_singleton, ht, h.doc]

end Tracks

end Draft

namespace ParamState

/-- **The reader knows of a parameter what its marks tell.** -/
theorem tracks_next {s : ParamState} {ms : List Mark} (h : s.draft.Tracks ms) (t : Token)
    (n : Option Token) : (s.next t n).draft.Tracks (ms ++ s.zone.marks t n) := by
  obtain ⟨d, depth, group⟩ := s
  cases group with
  | some g =>
      -- of a group, a parameter gets attributes only
      have hhead : ¬(zone ⟨d, depth, some g⟩).IsHead := by simp [Zone.IsHead, zone]
      rw [Zone.marks_of_not_isHead hhead, List.append_nil]
      exact ⟨h.name, h.type, h.default, h.doc⟩
  | none =>
      cases hd : d.default with
      | some text =>
          have hhead : ¬(zone ⟨d, depth, none⟩).IsHead := by simp [Zone.IsHead, zone, hd]
          rw [Zone.marks_of_not_isHead hhead, List.append_nil]
          by_cases hcomment : t.kind = .comment
          · simpa [next, step, hd, hcomment] using h
          · have hdefault := h.default
            rw [hd] at hdefault
            simpa [next, step, hd, hcomment] using
              Draft.Tracks.mk (d := { d with default := some (text ++ t.text) }) h.name h.type
                hdefault h.doc
      | none =>
          have hhead : (zone ⟨d, depth, none⟩).IsHead := by simp [Zone.IsHead, zone, hd]
          have hdepth : (zone ⟨d, depth, none⟩).depth = depth := rfl
          rw [Zone.marks_of_isHead hhead, hdepth]
          by_cases hequals : t.kind = .equals ∧ depth = 0
          · obtain ⟨ht, rfl⟩ := hequals
            simpa [next, step, hd, ht] using h.equals ht
          have htake := h.take (n := n) hd hequals
          by_cases hattribute : t.kind = .attributeOpen
          · simpa [next, step, hd, hattribute, Draft.take] using htake
          · simpa [next, step, hd, hattribute, hequals] using htake

end ParamState

namespace Draft

variable {d : Draft}

/-- Without a variable, a draft with a type or a default value cannot be completed. -/
theorem finish_eq_error_iff_of_none (hname : d.name = none) (line : Nat) (e : ReadError) :
    d.finish line = .error e ↔
      (d.typeText ≠ [] ∨ d.default.isSome = true) ∧ e = .missingParameterName line := by
  have hgiven : (d.typeText.isEmpty && d.default.isNone) = false ↔
      d.typeText ≠ [] ∨ d.default.isSome = true := by
    cases d.default <;> simp
  rw [← hgiven]
  cases hb : d.typeText.isEmpty && d.default.isNone <;> simp [finish, hname, hb, eq_comm]

/-- With a variable, a draft cannot be completed when its comment cannot be read. -/
theorem finish_eq_error_iff_of_some {name : Text} (hname : d.name = some name) (line : Nat)
    (e : ReadError) :
    d.finish line = .error e ↔ ∃ c, d.doc = some c ∧ DocBlock.read c.text c.line = .error e := by
  simp only [finish, hname, readDoc]
  cases d.doc with
  | none => simp [Except.map]
  | some c => cases hread : DocBlock.read c.text c.line <;> simp [hread, Except.map]

/-- **A draft cannot be completed exactly when its marks are faulty.** -/
theorem Tracks.finish_eq_error_iff {ms : List Mark} (h : d.Tracks ms) (t : Token) (e : ReadError) :
    d.finish t.line = .error e ↔ Stretch.Fault ⟨ms, t⟩ e := by
  have hvar := h.name
  cases hname : d.name with
  | none =>
      rw [hname] at hvar
      have hnone : ∀ m ∈ ms, ¬m.IsVariable := by simpa using hvar
      have hgiven : d.typeText ≠ [] ∨ d.default.isSome = true ↔
          ∃ m ∈ ms, m.SpellsType ∨ m.BeginsDefault := by
        rw [h.type hname, h.default]
        simp [and_or_left, exists_or]
      rw [finish_eq_error_iff_of_none hname, hgiven]
      constructor
      · rintro ⟨given, rfl⟩
        exact .nameless hnone given
      · rintro (⟨-, given⟩ | ⟨⟨m, hm, hvariable⟩, -, -⟩)
        · exact ⟨given, rfl⟩
        · exact absurd hvariable (hnone m hm)
  | some name =>
      rw [hname] at hvar
      have hsome : ∃ m ∈ ms, m.IsVariable := hvar.1 rfl
      rw [finish_eq_error_iff_of_some hname, h.doc]
      constructor
      · rintro ⟨c, hlast, hread⟩
        obtain ⟨line, rfl⟩ := DocBlock.exists_eq_emptyTagName_of_read hread
        exact .comment hsome hlast hread
      · rintro (⟨novar, -⟩ | ⟨-, hlast, hread⟩)
        · obtain ⟨m, hm, hvariable⟩ := hsome
          exact absurd hvariable (novar m hm)
        · exact ⟨_, hlast, hread⟩

/-- A draft can be completed exactly when its marks are sound. -/
theorem Tracks.exists_finish_iff {ms : List Mark} (h : d.Tracks ms) (t : Token) :
    (∃ p, d.finish t.line = .ok p) ↔ Stretch.IsSound ⟨ms, t⟩ := by
  have herror := h.finish_eq_error_iff t
  constructor
  · rintro ⟨p, hp⟩ e hfault
    rw [← herror, hp] at hfault
    cases hfault
  · intro hsound
    cases hfinish : d.finish t.line with
    | ok p => exact ⟨p, rfl⟩
    | error e => exact absurd ((herror e).1 hfinish) (hsound e)

end Draft

/-! ### Lists of parameters -/

section

variable {z : Zone} {ms : List Mark} {t : Token} {ts : List Token}

theorem stretches_next (h : z.endsAt t.kind = false) :
    stretches z ms (t :: ts) = stretches (z.step t.kind) (ms ++ z.marks t ts.head?) ts := by
  simp [stretches, h]

theorem stretches_comma (h : z.IsTop) (ht : t.kind = .comma) :
    stretches z ms (t :: ts) = ⟨ms, t⟩ :: stretches {} [] ts := by
  simp [stretches, Zone.endsAt, h, ht]

theorem stretches_close (h : z.IsTop) (ht : t.kind = .closeParen) :
    stretches z ms (t :: ts) = [⟨ms, t⟩] := by
  simp [stretches, Zone.endsAt, h, ht]

end

theorem not_firstFault_nil (e : ReadError) : ¬FirstFault [] e := nofun

theorem firstFault_cons_iff {p : Stretch} {ps : List Stretch} {e : ReadError} :
    FirstFault (p :: ps) e ↔ p.Fault e ∨ p.IsSound ∧ FirstFault ps e := by
  constructor
  · rintro (h | ⟨sound, h⟩)
    · exact .inl h
    · exact .inr ⟨sound, h⟩
  · rintro (h | ⟨sound, h⟩)
    · exact .here h
    · exact .later sound h

namespace ParamList

/-- **The errors of a list of parameters** are the fault of the first faulty one, and, when all that
end are sound, a missing end. -/
theorem read_eq_error_iff {s : ParamState} {ms : List Mark} (h : s.draft.Tracks ms)
    (ts : List Token) (e : ReadError) :
    read s ts = .error e ↔
      FirstFault (stretches s.zone ms ts) e ∨
        (∀ p ∈ stretches s.zone ms ts, p.IsSound) ∧ (s.zone.behind ts).isSome ∧
          e = .missingParameterList := by
  induction ts generalizing s ms with
  | nil => simp [read, stretches, Zone.behind, not_firstFault_nil, eq_comm]
  | cons t ts ih =>
      rcases s.zone.cases_endsAt t.kind with hend | ⟨htop, hcomma | hclose⟩
      · have hnext := ih (ParamState.tracks_next h t ts.head?)
        rw [ParamState.zone_next] at hnext
        rw [read_next hend, stretches_next hend, Zone.behind_cons, Zone.after_of_not_endsAt hend,
          Option.bind_some, hnext]
      · have hrest := ih (s := {}) .start
        have hsound := h.exists_finish_iff t
        have hbehind : s.zone.behind (t :: ts) = Zone.behind {} ts := by
          rw [Zone.behind_cons, hcomma, Zone.after_comma htop, Option.bind_some]
        rw [read_comma htop hcomma, stretches_comma htop hcomma, hbehind, firstFault_cons_iff,
          ← h.finish_eq_error_iff t, ← hsound, List.forall_mem_cons, ← hsound]
        cases s.draft.finish t.line with
        | error e' => simp [Except.bind]
        | ok p =>
            have hpush : (read {} ts).map (push p) = .error e ↔ read {} ts = .error e := by
              cases read {} ts <;> simp [Except.map]
            simpa [Except.bind, hpush] using hrest
      · rw [read_close htop hclose, stretches_close htop hclose, firstFault_cons_iff,
          ← h.finish_eq_error_iff t]
        have hbehind : s.zone.behind (t :: ts) = none := by
          rw [Zone.behind_cons, hclose, Zone.after_closeParen htop, Option.bind_none]
        cases s.draft.finish t.line <;> simp [hbehind, Except.map, not_firstFault_nil]

end ParamList

/-! ### Declarations -/

namespace Signature

/-- A declaration without a name: there is no keyword of a function, or no identifier between the
first one and the next opening parenthesis. -/
def Nameless (ts : List Token) : Prop :=
  (∀ t ∈ ts, t.kind ≠ .function) ∨ ∀ t ∈ nameTokens ts, t.kind ≠ .identifier

theorem nameless_iff (ts : List Token) : Nameless ts ↔ name? ts = none := by
  rw [Nameless, name?, lastIdentifier?_eq_none_iff, or_iff_right_iff_imp]
  intro hfunction
  have hnone : ts.dropWhile (·.kind != .function) = [] := by
    simpa [List.dropWhile_eq_nil_iff] using hfunction
  simp [nameTokens, behindKeyword, hnone]

theorem listTokens_eq_nil_iff (ts : List Token) :
    listTokens ts = [] ↔ ∀ t ∈ behindKeyword ts, t.kind ≠ .openParen := by
  simp [listTokens, List.dropWhile_eq_nil_iff]

/-- What is wrong with a declaration. -/
inductive Fault (ts : List Token) : ReadError → Prop
  | nameless (h : Nameless ts) : Fault ts .missingFunctionName
  /-- The list of parameters does not begin. -/
  | unopened (named : ¬Nameless ts) (h : ∀ t ∈ behindKeyword ts, t.kind ≠ .openParen) :
      Fault ts .missingParameterList
  /-- A parameter that ends is faulty, and those in front of it are not. -/
  | parameter {paren : Token} {body : List Token} {e : ReadError} (named : ¬Nameless ts)
      (list : listTokens ts = paren :: body) (h : FirstFault (stretches {} [] body) e) : Fault ts e
  /-- The list of parameters does not end. -/
  | unclosed {paren : Token} {body : List Token} (named : ¬Nameless ts)
      (list : listTokens ts = paren :: body) (sound : ∀ p ∈ stretches {} [] body, p.IsSound)
      (h : (Zone.behind {} body).isSome) : Fault ts .missingParameterList

/-- The fault of the first faulty parameter is never about the name of the function. -/
theorem ne_missingFunctionName_of_firstFault {ps : List Stretch} {e : ReadError}
    (h : FirstFault ps e) : e ≠ .missingFunctionName := by
  induction h with
  | here h => cases h <;> simp
  | later sound h ih => exact ih

theorem fault_missingFunctionName_iff (ts : List Token) :
    Fault ts .missingFunctionName ↔ Nameless ts := by
  constructor
  · intro h
    cases h with
    | nameless h => exact h
    | parameter named list h => exact absurd rfl (ne_missingFunctionName_of_firstFault h)
  · exact .nameless

section

variable {ts : List Token} {e : ReadError}

theorem fault_iff_of_nameless (h : Nameless ts) : Fault ts e ↔ e = .missingFunctionName := by
  constructor
  · rintro (_ | ⟨named, _⟩ | ⟨named, _, _⟩ | ⟨named, _, _, _⟩)
    · rfl
    all_goals exact absurd h named
  · rintro rfl
    exact .nameless h

theorem fault_iff_of_unopened (named : ¬Nameless ts) (list : listTokens ts = []) :
    Fault ts e ↔ e = .missingParameterList := by
  constructor
  · rintro (h | _ | ⟨_, list', _⟩ | _)
    · exact absurd h named
    · rfl
    · rw [list] at list'
      cases list'
    · rfl
  · rintro rfl
    exact .unopened named ((listTokens_eq_nil_iff ts).1 list)

theorem fault_iff_of_opened {paren : Token} {body : List Token} (named : ¬Nameless ts)
    (list : listTokens ts = paren :: body) :
    Fault ts e ↔ FirstFault (stretches {} [] body) e ∨
      (∀ p ∈ stretches {} [] body, p.IsSound) ∧ (Zone.behind {} body).isSome ∧
        e = .missingParameterList := by
  constructor
  · rintro (h | ⟨_, h⟩ | ⟨_, list', h⟩ | ⟨_, list', sound, h⟩)
    · exact absurd h named
    · rw [(listTokens_eq_nil_iff ts).2 h] at list
      cases list
    · obtain ⟨-, rfl⟩ := List.cons.inj (list.symm.trans list')
      exact .inl h
    · obtain ⟨-, rfl⟩ := List.cons.inj (list.symm.trans list')
      exact .inr ⟨sound, h, rfl⟩
  · rintro (h | ⟨sound, h, rfl⟩)
    · exact .parameter named list h
    · exact .unclosed named list sound h

end

/-- **The errors are exactly the faults of the tokens.**  The name of the function is missed exactly
when there is none, and every other error is the fault of the first faulty parameter, or a missing
beginning or end of the list. -/
theorem read_eq_error_iff_fault (ts : List Token) :
    (read ts = .error .missingFunctionName ↔ Nameless ts) ∧
      ∀ e, read ts = .error e ↔ Fault ts e := by
  have hfault : ∀ e, read ts = .error e ↔ Fault ts e := by
    intro e
    rw [read_eq]
    cases hname : name? ts with
    | none => simp [fault_iff_of_nameless ((nameless_iff ts).2 hname), eq_comm]
    | some n =>
        have named : ¬Nameless ts := by simp [nameless_iff, hname]
        cases hlist : listTokens ts with
        | nil => simp [fault_iff_of_unopened named hlist, eq_comm]
        | cons paren body =>
            have hmap : (ParamList.read {} body).map (ofList n) = .error e ↔
                ParamList.read {} body = .error e := by
              cases ParamList.read {} body <;> simp [Except.map]
            have hlistErrors := ParamList.read_eq_error_iff (s := {}) .start body e
            rw [fault_iff_of_opened named hlist]
            exact hmap.trans hlistErrors
  exact ⟨(hfault _).trans (fault_missingFunctionName_iff ts), hfault⟩

/-- In `function f(int,` the parameter without a variable is reported, not the missing end. -/
example :
    read [⟨.function, "function".toList, 1⟩, ⟨.identifier, ['f'], 1⟩, ⟨.openParen, ['('], 1⟩,
      ⟨.identifier, "int".toList, 2⟩, ⟨.comma, [','], 3⟩] = .error (.missingParameterName 3) := rfl

end Signature

end HintCheck
