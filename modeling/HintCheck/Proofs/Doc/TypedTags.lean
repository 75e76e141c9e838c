/-
**Types in tags.**

Three tags carry a type.  The result tag cuts it off at once; the other two look first whether the
type was left out in front of a variable.  A type expression that begins with the keyword `$this`
looks like one.  Only the result tag reads it, and the other tags are about a variable that has the
beginning of the expression for a name.

Main definitions:

* `HintCheck.Ty.IsTypeName` — the names in a type expression, with all spellings of keywords;
* `HintCheck.Ty.IsExpression` — the type expressions, with blanks only in angle brackets;
* `HintCheck.Ty.GoesOn` — a text goes on with a word behind a dollar sign in front;
* `HintCheck.DocBlock.lineOf` — the line of a tag with its parts.

Main results:

* `HintCheck.Ty.IsExpression.freeOutside_blank`, `HintCheck.Ty.IsExpression.cut` — **a type
  expression is cut off whole**;
* `HintCheck.Ty.IsExpression.goesOn` — only a keyword begins with a dollar sign;
* `HintCheck.DocBlock.readTag_of_expression` — **the typed tags read the same type**, unless it
  begins with a dollar sign.
-/

import HintCheck.Proofs.Doc.TagText

set_option relaxedAutoImplicit false
set_option autoImplicit false

namespace HintCheck

namespace Ty

open Text DocTag

/-! ### Type expressions -/

/-- A name in a type expression: a keyword, in any of its spellings, or the plain name of a
class. -/
def IsTypeName (w : Text) : Prop := (keyword w).isSome = true ∨ IsClassName w

instance (w : Text) : Decidable (IsTypeName w) :=
  inferInstanceAs (Decidable (_ ∨ _))

/-- A type expression, inside of angle brackets or not.  Only inside of them blanks may stand. -/
inductive IsExpression : Bool → Text → Prop where
  | name {inner : Bool} {w : Text} (hw : IsTypeName w) : IsExpression inner w
  | bar {inner : Bool} {s t : Text} (hs : IsExpression inner s) (ht : IsExpression inner t) :
      IsExpression inner (s ++ '|' :: t)
  | optional {inner : Bool} {s : Text} (hs : IsExpression inner s) : IsExpression inner ('?' :: s)
  | array {inner : Bool} {s : Text} (hs : IsExpression inner s) :
      IsExpression inner (s ++ "[]".toList)
  | enclosed {inner : Bool} {s : Text} (hs : IsExpression inner s) :
      IsExpression inner ('(' :: (s ++ [')']))
  | params {inner : Bool} {s : Text} {ps : List Text} (hs : IsExpression inner s)
      (hps : ∀ p ∈ ps, IsExpression true p) :
      IsExpression inner (s ++ '<' :: (",".toList.intercalate ps ++ ['>']))
  | padded {before after s : Text} (hbefore : AllBlank before) (hafter : AllBlank after)
      (hs : IsExpression true s) : IsExpression true (before ++ s ++ after)

/-! ### Names -/

/-- A spelling of a keyword has its letters. -/
theorem exists_keyword_of_isSome {w : Text} (h : (keyword w).isSome = true) :
    ∃ row ∈ keywords, ∃ k ∈ row.1.map String.toList, lower w = k := by
  obtain ⟨t, ht⟩ := Option.isSome_iff_exists.1 h
  obtain ⟨row, hrow, -, hmem⟩ := exists_row_of_keyword ht
  exact ⟨row, hrow, _, hmem, rfl⟩

/-- A name is made of the characters of words and the dollar sign. -/
theorem isWordChar_or_of_mem {w : Text} (h : IsTypeName w) {c : Char} (hc : c ∈ w) :
    isWordChar c = true ∨ c = '$' := by
  rcases h with h | h
  · have hall : ∀ row ∈ keywords, ∀ k ∈ row.1.map String.toList,
        k.all (fun d => isWordChar d || d == '$') = true := by decide
    obtain ⟨row, hrow, k, hk, hlower⟩ := exists_keyword_of_isSome h
    rcases toLower_eq_self_or_isUpper c with hself | hupper
    · have hmem : c ∈ k := by
        rw [← hlower, ← hself]
        exact List.mem_map_of_mem hc
      simpa using List.all_eq_true.1 (hall row hrow k hk) c hmem
    · exact Or.inl (isWordChar_of_isUpper hupper)
  · exact Or.inl (h.isWord.isWordChar c hc)

theorem IsTypeName.ne_nil {w : Text} (h : IsTypeName w) : w ≠ [] := by
  rintro rfl
  exact absurd h (by decide)

theorem IsTypeName.isPlain {w : Text} (h : IsTypeName w) : ∀ c ∈ w, IsPlain c := by
  intro c hc
  rcases isWordChar_or_of_mem h hc with hc | rfl
  · exact isPlain_of_isWordChar hc
  · exact ⟨by decide, by decide, by decide⟩

theorem IsTypeName.not_blank {w : Text} (h : IsTypeName w) : ∀ c ∈ w, isBlank c = false := by
  intro c hc
  rcases isWordChar_or_of_mem h hc with hc | rfl
  · exact isBlank_of_isWordChar hc
  · decide

/-- Behind a dollar sign in front, a text goes on with a character of a word. -/
def GoesOn (s : Text) : Prop :=
  ∀ cs, s = '$' :: cs → ∃ a rest, cs = a :: rest ∧ isWordChar a = true

/-- The only name with a dollar sign in front is `$this`. -/
theorem IsTypeName.goesOn {w : Text} (h : IsTypeName w) : GoesOn w := by
  rintro cs rfl
  rcases h with h | h
  · have hall : ∀ row ∈ keywords, ∀ k ∈ row.1.map String.toList, k.head? = some '$' →
        k = "$this".toList := by decide
    obtain ⟨row, hrow, k, hk, hlower⟩ := exists_keyword_of_isSome h
    have hthis := hlower.trans (hall row hrow k hk (by rw [← hlower]; rfl))
    cases cs with
    | nil => cases hthis
    | cons a rest =>
        have ha : a.toLower = 't' := (List.cons.inj (List.cons.inj hthis).2).1
        refine ⟨a, rest, rfl, ?_⟩
        rcases toLower_eq_self_or_isUpper a with hself | hupper
        · rw [← hself, ha]
          decide
        · exact isWordChar_of_isUpper hupper
  · exact absurd (h.isNameChar '$' (by simp)) (by decide)

/-! ### The characters of an expression -/

/-- A character that a type expression is made of. -/
def isExpressionChar (c : Char) : Bool := isTypeChar c || c == '$' || c == '?' || isBlank c

variable {inner : Bool} {e : Text}

theorem IsExpression.isExpressionChar (h : IsExpression inner e) :
    ∀ c ∈ e, isExpressionChar c = true := by
  induction h with
  | name hw =>
      intro c hc
      rcases isWordChar_or_of_mem hw hc with hc | rfl
      · simp [Ty.isExpressionChar, isTypeChar, hc]
      · decide
  | bar _ _ ihs iht =>
      rw [List.forall_mem_append, List.forall_mem_cons]
      exact ⟨ihs, by decide, iht⟩
  | optional _ ih =>
      rw [List.forall_mem_cons]
      exact ⟨by decide, ih⟩
  | array _ ih =>
      rw [List.forall_mem_append]
      exact ⟨ih, List.all_eq_true.1 (by decide)⟩
  | enclosed _ ih =>
      rw [List.forall_mem_cons, List.forall_mem_append]
      exact ⟨by decide, ih, List.all_eq_true.1 (by decide)⟩
  | @params _ s ps _ _ ihs ihps =>
      rw [List.forall_mem_append, List.forall_mem_cons, List.forall_mem_append]
      exact ⟨ihs, by decide, forall_mem_intercalate (List.all_eq_true.1 (by decide)) ihps,
        List.all_eq_true.1 (by decide)⟩
  | padded hbefore hafter _ ih =>
      rw [List.forall_mem_append, List.forall_mem_append]
      exact ⟨⟨fun c hc => by simp [Ty.isExpressionChar, hbefore c hc], ih⟩,
        fun c hc => by simp [Ty.isExpressionChar, hafter c hc]⟩

theorem IsExpression.ne_nil (h : IsExpression inner e) : e ≠ [] := by
  induction h with
  | name hw => exact hw.ne_nil
  | padded _ _ _ ih => simp [ih]
  | _ => simp

/-- The brackets of an expression are closed. -/
theorem IsExpression.balanced (h : IsExpression inner e) : Balanced e := by
  induction h with
  | name hw => exact balanced_of_isPlain hw.isPlain
  | bar _ _ ihs iht => exact ihs.append (Balanced.append (s := ['|']) (by decide) iht)
  | optional _ ih => exact Balanced.append (s := ['?']) (by decide) ih
  | array _ ih => exact ih.append (by decide)
  | enclosed _ ih => exact ih.enclosed (by decide) (by decide)
  | params _ _ ihs ihps =>
      exact ihs.append ((balanced_intercalate (by decide) ihps).enclosed (by decide) (by decide))
  | padded hbefore hafter _ ih =>
      exact ((balanced_of_allBlank hbefore).append ih).append (balanced_of_allBlank hafter)

/-- **A blank in an expression stands in angle brackets.** -/
theorem IsExpression.freeOutside_blank (h : IsExpression false e) : FreeOutside isBlank e := by
  generalize hinner : false = inner at h
  induction h with
  | name hw => exact freeOutside_of_forall hw.not_blank
  | bar hs _ ihs iht =>
      refine FreeOutside.append (sealed_of_balanced hs.balanced) (ihs hinner) ?_
      exact FreeOutside.append (s := ['|']) (by decide) (by decide) (iht hinner)
  | optional _ ih => exact FreeOutside.append (s := ['?']) (by decide) (by decide) (ih hinner)
  | array hs ih => exact (ih hinner).append (sealed_of_balanced hs.balanced) (by decide)
  | enclosed hs _ =>
      exact (sealed_of_balanced hs.balanced).freeOutside_between (by decide) (by decide)
  | params hs hps ihs _ =>
      have hinside : Balanced (",".toList.intercalate _) :=
        balanced_intercalate (by decide) fun p hp => (hps p hp).balanced
      refine FreeOutside.append (sealed_of_balanced hs.balanced) (ihs hinner) ?_
      exact (sealed_of_balanced hinside).freeOutside_between (by decide) (by decide)
  | padded => cases hinner

/-- What is put behind a text does not change how it begins. -/
theorem goesOn_append {s : Text} (hne : s ≠ []) (h : GoesOn s) (t : Text) : GoesOn (s ++ t) := by
  intro cs hcs
  obtain ⟨c, s, rfl⟩ := List.exists_cons_of_ne_nil hne
  simp only [List.cons_append, List.cons.injEq] at hcs
  obtain ⟨rfl, rfl⟩ := hcs
  obtain ⟨a, rest, rfl, ha⟩ := h s rfl
  exact ⟨a, rest ++ t, rfl, ha⟩

/-- An expression goes on with a letter of its keyword behind a dollar sign in front. -/
theorem IsExpression.goesOn (h : IsExpression inner e) : GoesOn e := by
  induction h with
  | name hw => exact hw.goesOn
  | bar hs _ ih _ => exact goesOn_append hs.ne_nil ih _
  | optional => exact fun cs hcs => absurd hcs (by simp)
  | array hs ih => exact goesOn_append hs.ne_nil ih _
  | enclosed => exact fun cs hcs => absurd hcs (by simp)
  | params hs _ ih _ => exact goesOn_append hs.ne_nil ih _
  | @padded before after s hbefore _ hs ih =>
      rw [List.append_assoc]
      cases before with
      | nil => exact goesOn_append hs.ne_nil ih after
      | cons b before =>
          intro cs hcs
          obtain rfl : b = '$' := (List.cons.inj hcs).1
          exact absurd (allBlank_cons.1 hbefore).1 (by decide)

/-! ### Cutting off an expression -/

theorem IsExpression.tight (h : IsExpression false e) : Tight e :=
  tight_of_freeOutside (sealed_of_balanced h.balanced) h.ne_nil h.freeOutside_blank

/-- **A type expression is cut off whole.** -/
theorem IsExpression.cut (h : IsExpression false e) :
    splitType e = (e, []) ∧ ∀ words, splitType (e ++ ' ' :: words) = (e, trim words) := by
  refine splitType_of_not_awaits (sealed_of_balanced h.balanced) h.freeOutside_blank
    (not_awaits_of_not_mem fun hmem => ?_)
  exact absurd (h.isExpressionChar ':' hmem) (by decide)

/-- Only a dollar sign makes an expression look like a variable. -/
theorem IsExpression.startsWithVariable (h : IsExpression inner e) (hdollar : e.head? ≠ some '$')
    (rest : Text) : startsWithVariable (e ++ rest) = false := by
  obtain ⟨c, cs, rfl⟩ := List.exists_cons_of_ne_nil h.ne_nil
  have hc := h.isExpressionChar c (by simp)
  refine startsWithVariable_cons (fun hc => hdollar (by simp [hc])) ?_ ?_ _
  all_goals
    rintro rfl
    exact absurd hc (by decide)

end Ty

namespace DocTag

open Text Ty

variable {e x : Text}

/-! ### The contents of the typed tags -/

/-- The type of a tag is read, in front of nothing or of other words. -/
theorem typedContent_expression (he : IsExpression false e) (hdollar : e.head? ≠ some '$') :
    typedContent e = (Ty.read e, []) ∧
      ∀ words, typedContent (e ++ ' ' :: words) = (Ty.read e, trim words) := by
  obtain ⟨hend, hwords⟩ := he.cut
  constructor
  · have hstart := he.startsWithVariable hdollar []
    rw [List.append_nil] at hstart
    simp only [typedContent, hstart, hend, Bool.false_eq_true, if_false]
  · intro words
    simp only [typedContent, he.startsWithVariable hdollar, hwords, Bool.false_eq_true, if_false]

/-- The variable that a text with a dollar sign in front is taken for goes on up to a blank. -/
theorem targetOf?_dollar {cs : Text} (h : GoesOn ('$' :: cs)) :
    targetOf? ('$' :: cs) =
      some (cs.takeWhile (!isBlank ·), trim (cs.dropWhile (!isBlank ·))) := by
  obtain ⟨a, rest, rfl, ha⟩ := h cs rfl
  have hblank := isBlank_of_isWordChar ha
  have hspace : isBlank '$' = false := by decide
  have hdollar : a ≠ '$' := by
    rintro rfl
    exact absurd ha (by decide)
  have hstart : startsWithVariable ('$' :: a :: rest) = true := by simp [startsWithVariable]
  simp [targetOf?, hstart, hblank, hspace, hdollar]

/-- A text with a dollar sign in front is taken for a variable, and its tag has no type. -/
theorem typedContent_dollar (cs : Text) : typedContent ('$' :: cs) = (.undefined, '$' :: cs) := by
  simp [typedContent, startsWithVariable]

end DocTag

namespace DocBlock

open Text Ty DocTag

/-! ### The typed tags -/

/-- The line of a tag with its parts. -/
def lineOf (name : String) (parts : List Text) : Text :=
  '@' :: (name.toList ++ behind (spaced parts))

variable {e x : Text} {n : Nat} {rest : List (Text × Nat)}

/-- A typed tag is read from its parts; blank lines behind it add nothing. -/
theorem readTag_lineOf {name : String} (hname : name ∈ ["param", "return", "var"])
    {parts : List Text} (hparts : ∀ p ∈ parts, trim p = p)
    (hrest : ∀ l ∈ rest, isBlankLine l = true) :
    readTag ((lineOf name parts, n), rest) =
      .ok (DocTag.ofContent n name.toList (spaced parts)) := by
  have hall : ∀ name ∈ ["param", "return", "var"], name.toList ≠ [] ∧
      name.toList.all isTagNameChar = true ∧ lowercase name.toList = name.toList := by
    decide +kernel
  obtain ⟨hne, hchars, hsmall⟩ := hall name hname
  exact readTag_append hne (List.all_eq_true.1 hchars) hsmall (trim_spaced hparts) n hrest

/-- **The typed tags read the same type**, unless it begins with a dollar sign.  Then only the
result tag reads it; the other tags have no type, and their variable has the first word of it for a
name. -/
theorem readTag_of_expression (he : IsExpression false e) (hx : IsVariableName x)
    (hrest : ∀ l ∈ rest, isBlankLine l = true) :
    readTag ((lineOf "return" [e], n), rest) = .ok (.result ⟨n, Ty.read e⟩ none) ∧
      (e.head? ≠ some '$' →
        readTag ((lineOf "var" [e], n), rest) = .ok (.var ⟨n, Ty.read e⟩ none none) ∧
        readTag ((lineOf "var" [e, '$' :: x], n), rest) =
          .ok (.var ⟨n, Ty.read e⟩ (some x) none) ∧
        readTag ((lineOf "param" [e, '$' :: x], n), rest) = .ok (.param ⟨n, Ty.read e⟩ x none)) ∧
      ∀ cs, e = '$' :: cs →
        readTag ((lineOf "var" [e], n), rest) =
          .ok (.var ⟨n, .undefined⟩ (some (cs.takeWhile (!isBlank ·)))
            (trim? (cs.dropWhile (!isBlank ·)))) ∧
        readTag ((lineOf "var" [e, '$' :: x], n), rest) =
          .ok (.var ⟨n, .undefined⟩ (some (cs.takeWhile (!isBlank ·)))
            (trim? (cs.dropWhile (!isBlank ·) ++ ' ' :: '$' :: x))) ∧
        readTag ((lineOf "param" [e, '$' :: x], n), rest) =
          .ok (.param ⟨n, .undefined⟩ (cs.takeWhile (!isBlank ·))
            (trim? (cs.dropWhile (!isBlank ·) ++ ' ' :: '$' :: x))) := by
  have htype : trim e = e := he.tight.trim_eq
  have hvariable : trim ('$' :: x) = '$' :: x := by
    refine (tight_of_forall (by simp) ?_).trim_eq
    rw [List.forall_mem_cons]
    exact ⟨by decide, hx.not_blank⟩
  have hone : spaced [e] = e := spaced_singleton e
  have htwo : spaced [e, '$' :: x] = e ++ ' ' :: '$' :: x := by
    rw [spaced_cons he.ne_nil, spaced_singleton, behind_of_ne_nil (by simp)]
  -- a tag is read from its content
  have hread : ∀ {name : String} {parts : List Text} {t : DocTag},
      name ∈ ["param", "return", "var"] → (∀ p ∈ parts, p = e ∨ p = '$' :: x) →
      ofContent n name.toList (spaced parts) = t →
      readTag ((lineOf name parts, n), rest) = .ok t := by
    intro name parts t hname hparts ht
    refine (readTag_lineOf hname (fun p hp => ?_) hrest).trans (by rw [ht])
    rcases hparts p hp with rfl | rfl
    · exact htype
    · exact hvariable
  refine ⟨hread (by decide) (by simp) ?_, fun hdollar => ?_, ?_⟩
  · rw [hone, ofContent_result he.cut.1]
    rfl
  · obtain ⟨hend, hwords⟩ := typedContent_expression he hdollar
    have htarget : targetOf? (trim ('$' :: x)) = some (x, []) := by
      have h : targetOf? ('$' :: x ++ behind []) = some (x, []) := targetOf?_variable hx rfl
      rwa [behind_nil, List.append_nil, ← hvariable] at h
    refine ⟨hread (by decide) (by simp) ?_, hread (by decide) (by simp) ?_,
      hread (by decide) (by simp) ?_⟩
    · rw [hone, ofContent_unnamed hend rfl]
      rfl
    · rw [htwo, ofContent_named (hwords _) htarget]
      rfl
    · rw [htwo, ofContent_param (hwords _) htarget]
      rfl
  · rintro cs rfl
    -- the word in front ends where it did, with or without a variable behind
    obtain ⟨htake, hdrop⟩ :=
      cut_append_cons (p := (!isBlank ·)) (c := ' ') (by decide) cs ('$' :: x)
    have hgoes := goesOn_append he.ne_nil he.goesOn (' ' :: '$' :: x)
    have htarget : targetOf? ('$' :: (cs ++ ' ' :: '$' :: x)) = _ := targetOf?_dollar hgoes
    rw [htake, hdrop] at htarget
    refine ⟨hread (by decide) (by simp) ?_, hread (by decide) (by simp) ?_,
      hread (by decide) (by simp) ?_⟩
    · rw [hone, ofContent_named (typedContent_dollar cs) (targetOf?_dollar he.goesOn), trim?_trim]
    · rw [htwo, List.cons_append, ofContent_named (typedContent_dollar _) htarget, trim?_trim]
    · rw [htwo, List.cons_append, ofContent_param (typedContent_dollar _) htarget, trim?_trim]

/-- A union of a nullable map and of a list, with blanks in the angle brackets. -/
def nestedExpression : Text := "?Map<int , (A|$THIS)[]>|list<Positive-INT>".toList

theorem isExpression_nestedExpression : IsExpression false nestedExpression := by
  have hrows : IsExpression true "(A|$THIS)[]".toList :=
    .array (s := "(A|$THIS)".toList) (.enclosed (s := "A|$THIS".toList)
      (.bar (s := "A".toList) (t := "$THIS".toList) (.name (by decide)) (.name (by decide))))
  have hmap : IsExpression false "Map<int , (A|$THIS)[]>".toList := by
    refine @IsExpression.params false "Map".toList ["int ".toList, " (A|$THIS)[]".toList]
      (.name (by decide)) ?_
    simp only [List.forall_mem_cons]
    exact ⟨@IsExpression.padded [] [' '] "int".toList (by decide) (by decide) (.name (by decide)),
      @IsExpression.padded [' '] [] _ (by decide) (by decide) hrows, by simp⟩
  have hlist : IsExpression false "list<Positive-INT>".toList := by
    refine @IsExpression.params false "list".toList ["Positive-INT".toList] (.name (by decide)) ?_
    rw [List.forall_mem_singleton]
    exact .name (w := "Positive-INT".toList) (by decide)
  exact .bar (s := "?Map<int , (A|$THIS)[]>".toList) (t := "list<Positive-INT>".toList)
    (.optional hmap) hlist

/-- The four lines with it are read alike, with a blank line behind each. -/
theorem readTag_of_nestedExpression :
    readTag ((lineOf "return" [nestedExpression], 4), [([' '], 5)]) =
        .ok (.result ⟨4, Ty.read nestedExpression⟩ none) ∧
      readTag ((lineOf "var" [nestedExpression], 4), [([' '], 5)]) =
        .ok (.var ⟨4, Ty.read nestedExpression⟩ none none) ∧
      readTag ((lineOf "var" [nestedExpression, "$row".toList], 4), [([' '], 5)]) =
        .ok (.var ⟨4, Ty.read nestedExpression⟩ (some "row".toList) none) ∧
      readTag ((lineOf "param" [nestedExpression, "$row".toList], 4), [([' '], 5)]) =
        .ok (.param ⟨4, Ty.read nestedExpression⟩ "row".toList none) := by
  obtain ⟨hresult, htyped, -⟩ := @readTag_of_expression nestedExpression "row".toList 4
    [([' '], 5)] isExpression_nestedExpression (by decide) (by decide)
  exact ⟨hresult, htyped (by decide)⟩

/-- A parameter tag that begins with the keyword `$this` is about a variable of that name. -/
theorem readTag_of_dollar :
    IsExpression false "$this|null".toList ∧ IsVariableName "x".toList ∧
      readTag ((lineOf "param" ["$this|null".toList, "$x".toList], 1), []) =
        .ok (.param ⟨1, .undefined⟩ "this|null".toList (some "$x".toList)) ∧
      readTag ((lineOf "param" ["$this|null".toList, "$x".toList], 1), []) ≠
        .ok (.param ⟨1, Ty.read "$this|null".toList⟩ "x".toList none) := by
  have hread : readTag ((lineOf "param" ["$this|null".toList, "$x".toList], 1), []) =
      .ok (.param ⟨1, .undefined⟩ "this|null".toList (some "$x".toList)) := by
    have htarget : targetOf? "$this|null $x".toList =
        some ("this|null".toList, "$x".toList) := by decide
    refine (readTag_lineOf (by decide) (by decide) (by simp)).trans (congrArg Except.ok ?_)
    exact ofContent_param (typedContent_dollar "this|null $x".toList) htarget 1
  refine ⟨.bar (s := "$this".toList) (t := "null".toList) (.name (by decide)) (.name (by decide)),
    by decide, hread, fun h => ?_⟩
  rw [hread] at h
  simp at h

end DocBlock

end HintCheck
