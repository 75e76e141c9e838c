/-
**Quotations in types.**

A quoted text is a string, whatever it says.  The scanner that looks for separators passes over a
quotation; the one that looks for the end of a bracket counts the brackets in it too.  Between
brackets a quotation is therefore taken for what it is exactly when its own brackets are balanced.
A bracket in it that closes nothing ends the bracket around it; one that is not closed leaves the
bracket around it open.

Main results:

* `HintCheck.Ty.read_quoted_bar` — a quotation in front of a bar is a string;
* `HintCheck.Ty.untilClosed_quoted`, `HintCheck.Ty.untilClosed_quoted_early` — where a bracket ends
  that has a quotation in it;
* `HintCheck.Ty.read_class_quoted`, `HintCheck.Ty.read_class_quoted_open`,
  `HintCheck.Ty.read_class_quoted_early` — what a class with a quotation for a parameter is read as;
* `HintCheck.Ty.read_quotation` — **a quotation between brackets is a string exactly when its own
  brackets are balanced.**
-/

import HintCheck.Proofs.Ty.Grammar
import HintCheck.Proofs.Ty.Widening

set_option relaxedAutoImplicit false
set_option autoImplicit false

namespace HintCheck

namespace Ty

open Text

variable {m : Char} {q s t name : Text}

/-! ### A quotation alone -/

theorem beq_eq_false_of_isQuote {c : Char} (hm : isQuote m = true) (hc : isQuote c = false) :
    (m == c) = false := by
  refine beq_eq_false_iff_ne.2 ?_
  rintro rfl
  rw [hc] at hm
  cases hm

/-- A quotation is a string, whatever it says. -/
theorem readMember_quoted (hm : isQuote m = true) (q : Text) :
    readMember (quoted m q) = atom .string := by
  have hlast : quoted m q = (m :: q) ++ [m] := (List.cons_append ..).symm
  have hblank := isBlank_eq_false_of_isQuote hm
  have htrim : trim (quoted m q) = quoted m q :=
    trim_eq_self rfl (List.getLast?_eq_some_iff.2 ⟨_, hlast⟩) hblank hblank
  have hne : ∀ c, isQuote c = false → m ≠ c :=
    fun c hc => beq_eq_false_iff_ne.1 (beq_eq_false_of_isQuote hm hc)
  have hparens : parenthesized? (quoted m q) = none := by
    unfold parenthesized?
    split
    · next h => exact absurd (List.cons.inj h).1 (hne '(' (by decide))
    · rfl
  have hquoted : isQuoted (quoted m q) = true := by
    simp [isQuoted, quoted, hm]
  rw [readMember_eq_readBase htrim rfl (hne '?' (by decide)) hlast (hne ']' (by decide)),
    readBase_of_not_parenthesized hparens, if_pos hquoted]

theorem read_quoted (hm : isQuote m = true) (hq : m ∉ q) : read (quoted m q) = atom .string := by
  rw [read_of_freeOutside (sealed_quoted hm hq)
    (freeOutside_quoted hm hq (beq_eq_false_of_isQuote hm (by decide))), readMember_quoted hm]

/-- A quotation in front of a bar is a string. -/
theorem read_quoted_bar (hm : isQuote m = true) (hq : m ∉ q) (s : Text) :
    read (quoted m q ++ '|' :: s) = unionOf [atom .string, read s] := by
  have hne : (splitTop '|' s).map readMember ≠ [] := by simp [splitTop, splitTopFrom_ne_nil]
  have hbar : FreeOutside (· == '|') (quoted m q) :=
    freeOutside_quoted hm hq (beq_eq_false_of_isQuote hm (by decide))
  rw [read_eq_splitTop,
    splitTop_sealed_append isSeparator_bar.toIsPlain (sealed_quoted hm hq) hbar, List.map_cons,
    readMember_congr (trim_trim _), readMember_quoted hm, read_eq_splitTop s]
  exact @ofAlternatives_append [atom .string] _ (by simp) hne

/-! ### A quotation between brackets -/

/-- A bracket with a quotation and a balanced text in it ends behind them, unless a bracket of the
quotation is not closed. -/
theorem untilClosed_quoted (hm : isQuote m = true) {e : Nat}
    (hq : depthAfter? 0 (unquoted q) = some e) (ht : Balanced t) {z : Char}
    (hz : isClose z = true) :
    untilClosed 0 (quoted m q ++ t ++ [z]) =
      if e = 0 then some (quoted m q ++ t, []) else none := by
  have hquoted : depthAfter? 0 (unquoted (quoted m q ++ t)) = some e := by
    have h : depthAfter? (0 + e) t = some (0 + e) := depthAfter?_add ht e
    rw [Nat.zero_add] at h
    rw [unquoted_append, unquoted_quoted hm, unquoted_of_depthAfter? ht,
      depthAfter?_append_of_eq_some hq, h]
  have hopen := isOpen_eq_false_of_isClose hz
  rw [untilClosed_append_of_unquoted hquoted]
  cases e with
  | zero => simp [untilClosed, hopen, hz]
  | succ e => simp [untilClosed, hopen, hz]

/-- A bracket of the quotation that closes nothing ends the bracket around it. -/
theorem untilClosed_quoted_early (hm : isQuote m = true) {front back : Text} {c : Char}
    (hc : isClose c = true) (hfront : Balanced (unquoted front)) (t : Text) :
    untilClosed 0 (quoted m (front ++ c :: back) ++ t) = some (m :: front, back ++ m :: t) := by
  have hskip : depthAfter? 0 (unquoted (m :: front)) = some 0 := by
    rw [unquoted, List.filter_cons_of_neg (by simp [hm])]
    exact hfront
  have hsplit : quoted m (front ++ c :: back) ++ t = (m :: front) ++ c :: (back ++ m :: t) := by
    simp [quoted]
  rw [hsplit, untilClosed_append_of_unquoted hskip]
  simp [untilClosed, isOpen_eq_false_of_isClose hc, hc]

/-- A bracket ends behind a quotation exactly when the brackets of the quotation are balanced. -/
theorem untilClosed_quoted_iff (hm : isQuote m = true) (ht : Balanced t) {z : Char}
    (hz : isClose z = true) :
    untilClosed 0 (quoted m q ++ t ++ [z]) = some (quoted m q ++ t, []) ↔
      Balanced (unquoted q) := by
  constructor
  · intro h
    rcases depthAfter?_or_exists_isClose 0 q with ⟨e, he⟩ | ⟨front, c, back, rfl, hc, hfront⟩
    · rw [untilClosed_quoted hm he ht hz] at h
      split at h
      · next hzero =>
        rw [hzero] at he
        exact he
      · cases h
    · rw [List.append_assoc, untilClosed_quoted_early hm hc hfront] at h
      have hback := congrArg (fun r => r.2.length) (Option.some_inj.1 h)
      simp at hback
  · intro h
    rw [untilClosed_quoted hm h ht hz, if_pos rfl]

/-! ### Parameters -/

/-- A class with parameters in sealed brackets is read up to where its bracket ends. -/
theorem read_class (hname : IsClassName name) (hkey : keyword name = none) {inside : Text}
    (hinside : Sealed inside) :
    read (name ++ '<' :: (inside ++ ['>'])) = match untilClosed 0 (inside ++ ['>']) with
      | some (params, _) => generic name ((splitTop ',' params).map read)
      | none => named (name ++ '<' :: (inside ++ ['>'])) := by
  rw [read_eq_readBase hname.isWord hinside (by decide) (by decide) (by decide),
    readBase_of_word hname.isWord, named?_append hname.isWord (by decide)]
  cases h : untilClosed 0 (inside ++ ['>']) with
  | none => simp [h]
  | some r => simp [h, ofParams, hkey, not_isArrayLike_of_keyword hkey, Function.comp_def]

section Quoted

variable (hm : isQuote m = true) (hq : m ∉ q)
include hm hq

/-- A class with a quotation and another text for parameters. -/
theorem read_class_pair (hname : IsClassName name) (hkey : keyword name = none)
    (hs : Balanced s) :
    read (paramText name [quoted m q, s]) =
      match untilClosed 0 (quoted m q ++ (", ".toList ++ s) ++ ['>']) with
      | some (params, _) => generic name ((splitTop ',' params).map read)
      | none => named (paramText name [quoted m q, s]) := by
  have htext : paramText name [quoted m q, s] =
      name ++ '<' :: (quoted m q ++ (", ".toList ++ s) ++ ['>']) := by
    simp [paramText, join, List.intercalate_cons_cons]
  have hinside : Sealed (quoted m q ++ (", ".toList ++ s)) :=
    (sealed_quoted hm hq).append (sealed_of_balanced (Balanced.append (by decide) hs))
  rw [htext]
  exact read_class hname hkey hinside

/-- When its brackets are balanced, the quotation is a string. -/
theorem read_class_quoted (hname : IsClassName name) (hkey : keyword name = none)
    (hs : Balanced s) (hfree : TopFree ',' s) (hclosed : Balanced (unquoted q)) :
    read (paramText name [quoted m q, s]) = generic name [atom .string, read s] := by
  have hpieces : splitTop ',' (quoted m q ++ (", ".toList ++ s)) = [trim (quoted m q), trim s] := by
    change splitTop ',' (quoted m q ++ ',' :: ([' '] ++ s)) = _
    rw [splitTop_sealed_append isSeparator_comma.toIsPlain (sealed_quoted hm hq)
        (freeOutside_quoted hm hq (beq_eq_false_of_isQuote hm (by decide))),
      splitTop_of_allBlank_append isSeparator_comma.isBlank (by decide),
      splitTop_of_topFree hs hfree]
  have hread := read_class_pair hm hq hname hkey hs
  rw [(untilClosed_quoted_iff hm (Balanced.append (by decide) hs) (by decide)).2 hclosed] at hread
  simp only [hpieces, List.map_cons, List.map_nil] at hread
  rw [hread, read_congr (trim_trim (quoted m q)), read_congr (trim_trim s), read_quoted hm hq]

/-- When a bracket of the quotation is not closed, the whole text is taken for a name. -/
theorem read_class_quoted_open (hname : IsClassName name) (hkey : keyword name = none)
    (hs : Balanced s) {e : Nat} (hopen : depthAfter? 0 (unquoted q) = some (e + 1)) :
    read (paramText name [quoted m q, s]) = named (paramText name [quoted m q, s]) := by
  rw [read_class_pair hm hq hname hkey hs,
    untilClosed_quoted hm hopen (Balanced.append (by decide) hs) (by decide)]
  rfl

/-- When a bracket of the quotation closes nothing, the only parameter is what stands in front of
that. -/
theorem read_class_quoted_early (hname : IsClassName name) (hkey : keyword name = none)
    (hs : Balanced s) {front back : Text} {c : Char} (hsplit : q = front ++ c :: back)
    (hc : isClose c = true) (hfront : Balanced (unquoted front)) :
    read (paramText name [quoted m q, s]) = generic name [read (m :: front)] := by
  have hread := read_class_pair hm hq hname hkey hs
  subst hsplit
  rw [List.append_assoc, untilClosed_quoted_early hm hc hfront] at hread
  -- what is left of the quotation has no end, so that no comma of it separates parameters
  have hmark : m ∉ front := fun hmem => hq (by simp [hmem])
  have hfree : FreeOutside (· == ',') ((m :: front) ++ [m]) :=
    freeOutside_quoted hm hmark (beq_eq_false_of_isQuote hm (by decide))
  have hpieces : splitTop ',' (m :: front) = [trim (m :: front)] :=
    splitTop_of_freeOutside (after?_mark_append hm hmark) hfree.left
  simp only [hpieces, List.map_cons, List.map_nil] at hread
  rw [hread, read_congr (trim_trim (m :: front))]

/-! ### Parentheses -/

omit hm hq in
/-- What begins with a parenthesis but is not in parentheses is taken for a name. -/
theorem readBase_of_open {cs : Text} (h : parenthesized? ('(' :: cs) = none) :
    readBase ('(' :: cs) = named ('(' :: cs) := by
  have hquoted : isQuoted ('(' :: cs) = false := by
    simp [isQuoted, show isQuote '(' = false by decide]
  have hnumeral : numeral? ('(' :: cs) = none := by
    simp [numeral?, show ('(' : Char).isDigit = false by decide]
  have hnamed : named? ('(' :: cs) = none := by
    simp [named?, show opensPart '(' = true by decide, trim?, show trim [] = [] by rfl]
  have hkey : keyword ('(' :: cs) = none := @keyword_eq_none_of_mem _ '(' rfl (by simp)
  rw [readBase_of_not_parenthesized h, hquoted, hnumeral, hnamed, hkey]
  rfl

/-- An array of a union in parentheses is an array of what the parentheses are read as. -/
theorem read_parens_brackets (hs : Balanced s)
    (hdefined : (readBase ('(' :: (quoted m q ++ '|' :: s ++ [')']))).isDefined = true) :
    read ('(' :: (quoted m q ++ '|' :: s ++ [')']) ++ "[]".toList) =
      arrayOf (readBase ('(' :: (quoted m q ++ '|' :: s ++ [')']))) 1 := by
  have hinside : Sealed (quoted m q ++ '|' :: s) :=
    (sealed_quoted hm hq).append (Sealed.append (s := ['|']) (by decide) (sealed_of_balanced hs))
  have hsealed : Sealed ('(' :: (quoted m q ++ '|' :: s ++ [')'])) :=
    hinside.between (by decide) (by decide)
  have hfree : FreeOutside (· == '|') ('(' :: (quoted m q ++ '|' :: s ++ [')'])) :=
    hinside.freeOutside_between (by decide) (by decide)
  have hlast : '(' :: (quoted m q ++ '|' :: s ++ [')']) =
      ('(' :: (quoted m q ++ '|' :: s)) ++ [')'] := (List.cons_append ..).symm
  have htrim : trim ('(' :: (quoted m q ++ '|' :: s ++ [')'])) =
      '(' :: (quoted m q ++ '|' :: s ++ [')']) :=
    trim_eq_self rfl (List.getLast?_eq_some_iff.2 ⟨_, hlast⟩) (by decide) (by decide)
  have hmember := readMember_eq_readBase htrim rfl (by decide) hlast (by decide)
  rw [← hmember] at hdefined ⊢
  rw [read_of_freeOutside (hsealed.append (by decide)) (hfree.append hsealed (by decide)),
    readMember_brackets (by rw [htrim]; simp) hdefined]

omit hq in
/-- Parentheses around a quotation are seen exactly when the brackets of the quotation are
balanced. -/
theorem parenthesized?_quoted (hs : Balanced s) :
    parenthesized? ('(' :: (quoted m q ++ '|' :: s ++ [')'])) =
      if Balanced (unquoted q) then some (quoted m q ++ '|' :: s) else none := by
  have hbar : Balanced ('|' :: s) := Balanced.append (s := ['|']) (by decide) hs
  have hclosed := untilClosed_quoted_iff (q := q) hm hbar (z := ')') (by decide)
  simp only [parenthesized?]
  split
  · next inside hinside =>
    -- nothing stands behind the end, so the inside is everything in front of it
    obtain ⟨z, -, htext⟩ := untilClosed_eq_some hinside
    obtain ⟨rfl, -⟩ := List.append_inj' htext rfl
    rw [if_pos (hclosed.1 hinside)]
  · next hother =>
    rw [if_neg fun h => hother _ (hclosed.2 h)]

/-- When its brackets are balanced, the quotation is a string. -/
theorem read_array_quoted (hs : Balanced s) (hclosed : Balanced (unquoted q)) :
    read ('(' :: (quoted m q ++ '|' :: s ++ [')']) ++ "[]".toList) =
      arrayOf (unionOf [atom .string, read s]) 1 := by
  have hparens := parenthesized?_quoted hm hs (q := q)
  rw [if_pos hclosed] at hparens
  have hbase := (readBase_of_parenthesized hparens).trans (read_quoted_bar hm hq s)
  have hdefined : (unionOf [atom .string, read s]).isDefined = true :=
    isDefined_unionOf List.mem_cons_self (m := atom .string) (by simp [flatten])
  rw [read_parens_brackets hm hq hs (by rw [hbase, hdefined]), hbase]

/-- Otherwise the text in parentheses is taken for a name. -/
theorem read_array_quoted_other (hs : Balanced s) (hclosed : ¬Balanced (unquoted q)) :
    read ('(' :: (quoted m q ++ '|' :: s ++ [')']) ++ "[]".toList) =
      array (named ('(' :: (quoted m q ++ '|' :: s ++ [')']))) 1 := by
  have hparens := parenthesized?_quoted hm hs (q := q)
  rw [if_neg hclosed] at hparens
  have hbase := readBase_of_open hparens
  rw [read_parens_brackets hm hq hs (by rw [hbase]; rfl), hbase]
  rfl

omit hm hq in
/-- A union with a string is no name, and no array of one. -/
theorem array_named_ne (n : Text) (t : Ty) :
    array (named n) 1 ≠ arrayOf (unionOf [atom .string, t]) 1 := by
  intro h
  have hnormal : Normal (atom .string) := trivial
  have hmem : atom .string ∈ expand (unionOf [atom .string, t]) :=
    expand_subset_unionOf hnormal t List.mem_cons_self
  cases hu : unionOf [atom .string, t] with
  | array e d =>
      rw [hu] at hmem
      simp [expand] at hmem
  | named k =>
      rw [hu] at hmem
      simp [expand] at hmem
  | _ => simp [hu, arrayOf, arrayBy] at h

/-- **A quotation is a string** wherever no bracket ends behind it; between brackets it is one
exactly when its own brackets are balanced. -/
theorem read_quotation (hname : IsClassName name) (hkey : keyword name = none) (hs : Balanced s)
    (hfree : TopFree ',' s) :
    read (quoted m q ++ '|' :: s) = unionOf [atom .string, read s] ∧
      (read (paramText name [quoted m q, s]) = generic name [atom .string, read s] ↔
        Balanced (unquoted q)) ∧
      (read ('(' :: (quoted m q ++ '|' :: s ++ [')']) ++ "[]".toList) =
          arrayOf (unionOf [atom .string, read s]) 1 ↔
        Balanced (unquoted q)) := by
  have hbar := read_quoted_bar hm hq s
  refine ⟨hbar, ⟨fun h => ?_, read_class_quoted hm hq hname hkey hs hfree⟩, ?_⟩
  · rcases depthAfter?_or_exists_isClose 0 q with ⟨e, he⟩ | ⟨front, c, back, hsplit, hc, hfront⟩
    · cases e with
      | zero => exact he
      | succ e =>
          rw [read_class_quoted_open hm hq hname hkey hs he] at h
          cases h
    · rw [read_class_quoted_early hm hq hname hkey hs hsplit hc hfront] at h
      simp at h
  · refine ⟨fun h => Classical.byContradiction fun hclosed => ?_, read_array_quoted hm hq hs⟩
    rw [read_array_quoted_other hm hq hs hclosed] at h
    exact array_named_ne _ _ h

end Quoted

/-- A text in which brackets, a comma, a bar and marks of the other kind are quoted. -/
def quotedTag : Text := "<a href=\"b\">, (c|d)".toList

/-- It is a string in front of a bar, for a parameter and in parentheses. -/
theorem read_quotation_of_quotedTag :
    read (quoted '\'' quotedTag ++ '|' :: "?list<int, A>".toList) =
        unionOf [atom .string, read "?list<int, A>".toList] ∧
      read (paramText "Map".toList [quoted '\'' quotedTag, "?list<int, A>".toList]) =
        generic "Map".toList [atom .string, read "?list<int, A>".toList] ∧
      read ('(' :: (quoted '\'' quotedTag ++ '|' :: "?list<int, A>".toList ++ [')']) ++
          "[]".toList) =
        arrayOf (unionOf [atom .string, read "?list<int, A>".toList]) 1 := by
  have hclosed : Balanced (unquoted quotedTag) := by decide
  obtain ⟨hbar, hclass, harray⟩ := @read_quotation '\'' quotedTag "?list<int, A>".toList
    "Map".toList (by decide) (by decide) (by decide) (by decide) (by decide) (by decide)
  exact ⟨hbar, hclass.2 hclosed, harray.2 hclosed⟩

/-- A quoted bracket that closes nothing ends the parameters. -/
theorem read_class_of_quoted_bracket :
    read (paramText "C".toList [quoted '\'' ">".toList, "int".toList]) =
        generic "C".toList [read "'".toList] ∧
      read (paramText "C".toList [quoted '\'' ">".toList, "int".toList]) ≠
        generic "C".toList [atom .string, read "int".toList] := by
  have hread : read (paramText "C".toList [quoted '\'' ">".toList, "int".toList]) =
      generic "C".toList [read "'".toList] :=
    @read_class_quoted_early '\'' ">".toList "int".toList "C".toList (by decide) (by decide)
      (by decide) (by decide) (by decide) [] [] '>' rfl (by decide) (by decide)
  refine ⟨hread, fun h => ?_⟩
  rw [hread] at h
  simp at h

end Ty

end HintCheck
