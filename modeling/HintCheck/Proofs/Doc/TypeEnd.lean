/-
**Where the type of a tag ends.**

The type of a tag ends at the first blank outside of brackets and quotations.  Only behind the colon
of a callable do blanks not end it, because the result type is still to come.  The splitter forgets
the colon at the first character that begins the result type; but brackets and quotation marks do
not count as one, nor does anything in quotation marks.  A result type that is a quoted text leaves
the splitter waiting, so that the first word behind the type is taken for the result type.

Main definitions:

* `HintCheck.DocTag.colonBehind` — whether the splitter waits for a result type, behind a character;
* `HintCheck.DocTag.Awaits` — whether it does so behind a text;
* `HintCheck.DocTag.AwaitsResult` — whether it does so behind a result type;
* `HintCheck.DocTag.callableHead`, `HintCheck.DocTag.callableText` — a callable up to the colon, and
  with its result type.

Main results:

* `HintCheck.DocTag.splitTypeFrom_cons`, `HintCheck.DocTag.splitTypeFrom_append` — one step of the
  splitter, and its way through a text;
* `HintCheck.DocTag.splitType_of_not_awaits` — a text is cut off whole when nothing is awaited
  behind it;
* `HintCheck.DocTag.splitType_callable` — **a callable is cut off with its result type exactly when
  nothing is awaited behind that.**
-/

import Mathlib.Tactic.SplitIfs
import HintCheck.Doc.Tag
import HintCheck.Proofs.Text.Standing

set_option relaxedAutoImplicit false
set_option autoImplicit false

namespace HintCheck

namespace DocTag

open Text Standing

/-! ### Waiting for a result type -/

/-- A bracket or a quotation mark. -/
def isMark (c : Char) : Bool := isQuote c || isOpen c || isClose c

/-- Outside of its quotations, a text from a place on has only brackets and quotation marks. -/
def OnlyMarksFrom (σ : Standing) (s : Text) : Prop :=
  σ.AllAt (fun ρ c => ρ.quote = none → isMark c = true) s

instance (σ : Standing) (s : Text) : Decidable (OnlyMarksFrom σ s) :=
  inferInstanceAs (Decidable (σ.AllAt _ s))

/-- Whether the splitter waits for a result type behind a character, given whether it did in front
of it and the character before. -/
def colonBehind (σ : Standing) (colon : Bool) (last : Option Char) (c : Char) : Bool :=
  if σ.quote ≠ none ∨ isMark c = true then colon
  else decide (c = ':' ∧ σ = outside ∧ last = some ')')

/-- The splitter waits for a result type behind a text: it did in front of it, or a colon stands
behind parentheses in it, and since then there were only brackets and quotations. -/
def Awaits (σ : Standing) (colon : Bool) (last : Option Char) (s : Text) : Prop :=
  (colon = true ∧ OnlyMarksFrom σ s) ∨
    ∃ front back, s = front ++ ':' :: back ∧ σ.after? front = some outside ∧
      front.getLast?.or last = some ')' ∧ OnlyMarksFrom outside back

variable {σ τ : Standing} {c : Char} {s : Text} {colon : Bool} {last : Option Char}

theorem awaits_nil : Awaits σ colon last [] ↔ colon = true := by
  have hnil : OnlyMarksFrom σ [] := allAt_nil σ
  simp [Awaits, hnil]

/-- Without a colon nothing is awaited. -/
theorem not_awaits_of_not_mem (h : ':' ∉ s) : ¬Awaits σ false last s := by
  rintro (⟨hcolon, -⟩ | ⟨front, back, rfl, -⟩)
  · cases hcolon
  · exact h (by simp)

/-- The colon behind parentheses leaves a scanner where it is. -/
theorem next?_colon : outside.next? ':' = some outside := by decide

/-- What is awaited behind a text is what is awaited behind its first character, and then behind
what follows it. -/
theorem awaits_cons {cs : Text} (h : σ.next? c = some τ) :
    Awaits σ colon last (c :: cs) ↔ Awaits τ (colonBehind σ colon last c) (some c) cs := by
  have hmarks : OnlyMarksFrom σ (c :: cs) ↔
      (σ.quote = none → isMark c = true) ∧ OnlyMarksFrom τ cs := by
    refine allAt_cons.trans (and_congr_right fun _ => ⟨fun hrest => hrest τ h, ?_⟩)
    intro hrest ρ hρ
    obtain rfl := Option.some_inj.1 (h.symm.trans hρ)
    exact hrest
  have hmark : isMark ':' = false := by decide
  constructor
  · rintro (⟨rfl, hc⟩ | ⟨front, back, hcs, hfront, hparen, hback⟩)
    · obtain ⟨hc, hcs⟩ := hmarks.1 hc
      refine Or.inl ⟨?_, hcs⟩
      by_cases hq : σ.quote = none <;> simp [colonBehind, hq, hc]
    · cases front with
      | nil =>
          simp only [List.nil_append, List.cons.injEq] at hcs
          obtain ⟨rfl, rfl⟩ := hcs
          obtain rfl := Option.some_inj.1 hfront
          obtain rfl := Option.some_inj.1 (next?_colon.symm.trans h)
          have hparen : last = some ')' := hparen
          exact Or.inl ⟨by simp [colonBehind, hmark, hparen, outside], hback⟩
      | cons a front =>
          simp only [List.cons_append, List.cons.injEq] at hcs
          obtain ⟨rfl, rfl⟩ := hcs
          rw [after?_cons_of_next? h] at hfront
          rw [getLast?_cons_or] at hparen
          exact Or.inr ⟨front, back, rfl, hfront, hparen, hback⟩
  · rintro (⟨hcolon, hcs⟩ | ⟨front, back, rfl, hfront, hparen, hback⟩)
    · unfold colonBehind at hcolon
      split at hcolon
      · next hc =>
        exact Or.inl ⟨hcolon, hmarks.2 ⟨fun hq => hc.resolve_left (not_not_intro hq), hcs⟩⟩
      · next hc =>
        obtain ⟨rfl, rfl, rfl⟩ := of_decide_eq_true hcolon
        obtain rfl := Option.some_inj.1 (next?_colon.symm.trans h)
        exact Or.inr ⟨[], cs, rfl, rfl, rfl, hcs⟩
    · refine Or.inr ⟨c :: front, back, rfl, ?_, ?_, hback⟩
      · rw [after?_cons_of_next? h, hfront]
      · rw [getLast?_cons_or, hparen]

/-! ### The way of the splitter -/

/-- One step of the splitter, on a character that does not end the type. -/
theorem splitTypeFrom_cons (h : σ.next? c = some τ) (hblank : σ = outside → isBlank c = false)
    (colon : Bool) (last : Option Char) (cs : Text) :
    splitTypeFrom σ.depth σ.quote colon last (c :: cs) =
      consInside c (splitTypeFrom τ.depth τ.quote (colonBehind σ colon last c) (some c) cs) := by
  obtain ⟨d, q⟩ := σ
  obtain ⟨q, rfl, rfl⟩ | ⟨rfl, hq, rfl⟩ | ⟨rfl, hq, e, he, rfl⟩ := next?_cases h
  · simp [splitTypeFrom, colonBehind]
  · simp [splitTypeFrom, colonBehind, isMark, hq]
  · obtain ⟨-, ⟨ho, rfl⟩ | ⟨ho, hc, rfl⟩ | ⟨ho, hc, rfl⟩⟩ := depthStep?_cases he
    · simp [splitTypeFrom, colonBehind, isMark, hq, ho]
    · simp [splitTypeFrom, colonBehind, isMark, hq, ho, hc]
    · have hblank : ¬(isBlank c = true ∧ e = 0) := by
        rintro ⟨hb, rfl⟩
        rw [hblank rfl] at hb
        cases hb
      by_cases hcolon : c = ':' ∧ e = 0 ∧ last = some ')'
      · obtain ⟨rfl, rfl, rfl⟩ := hcolon
        rfl
      · have hno : colonBehind ⟨e, none⟩ colon last c = false := by
          simpa [colonBehind, isMark, hq, ho, hc, outside] using hcolon
        rw [splitTypeFrom, if_neg (by simp [hq]), if_neg (by simp [ho]), if_neg (by simp [hc]),
          if_neg hcolon, if_neg hblank, hno]

/-- A blank between the colon and the result type is passed over. -/
theorem splitTypeFrom_blank_cons (hc : isBlank c = true) (last : Option Char) (cs : Text) :
    splitTypeFrom 0 none true last (c :: cs) =
      consInside c (splitTypeFrom 0 none true last cs) := by
  have hplain := isPlain_of_isBlank hc
  have hcolon : c ≠ ':' := by
    rintro rfl
    exact absurd hc (by decide)
  simp [splitTypeFrom, hplain.isQuote, hplain.isOpen, hplain.isClose, hcolon, hc]

/-- Any other blank outside ends the type. -/
theorem splitTypeFrom_end (last : Option Char) (words : Text) :
    splitTypeFrom 0 none false last (' ' :: words) = ([], trim words) := by
  have hspace : isBlank ' ' = true := by decide
  have hplain := isPlain_of_isBlank hspace
  simp [splitTypeFrom, hplain.isQuote, hplain.isOpen, hplain.isClose, hspace,
    trim_blank_cons hspace]

theorem splitTypeFrom_allBlank_append {w : Text} (hw : AllBlank w) (last : Option Char)
    (t : Text) :
    splitTypeFrom 0 none true last (w ++ t) =
      (w ++ (splitTypeFrom 0 none true last t).1, (splitTypeFrom 0 none true last t).2) := by
  induction w with
  | nil => rfl
  | cons b w ih =>
      obtain ⟨hb, hw⟩ := allBlank_cons.1 hw
      rw [List.cons_append, splitTypeFrom_blank_cons hb, ih hw]
      rfl

/-- **A text without blanks outside belongs to the type**, and what follows it is split as the text
leaves the splitter. -/
theorem splitTypeFrom_append (hs : σ.after? s = some τ)
    (hblank : σ.AllAt (fun ρ c => ρ = outside → isBlank c = false) s) (colon : Bool)
    (last : Option Char) :
    ∃ colon', (colon' = true ↔ Awaits σ colon last s) ∧ ∀ t,
      splitTypeFrom σ.depth σ.quote colon last (s ++ t) =
        (s ++ (splitTypeFrom τ.depth τ.quote colon' (s.getLast?.or last) t).1,
          (splitTypeFrom τ.depth τ.quote colon' (s.getLast?.or last) t).2) := by
  induction s generalizing σ colon last with
  | nil =>
      obtain rfl := Option.some_inj.1 hs
      exact ⟨colon, awaits_nil.symm, fun t => rfl⟩
  | cons c cs ih =>
      obtain ⟨ρ, hρ, hs⟩ := after?_cons_eq_some.1 hs
      obtain ⟨hfirst, hrest⟩ := allAt_cons.1 hblank
      obtain ⟨colon', hcolon, hsplit⟩ :=
        ih hs (hrest ρ hρ) (colonBehind σ colon last c) (some c)
      refine ⟨colon', hcolon.trans (awaits_cons hρ).symm, fun t => ?_⟩
      rw [List.cons_append, splitTypeFrom_cons hρ hfirst, hsplit, getLast?_cons_or]
      rfl

/-- **A text is cut off whole** when no blank stands outside in it and nothing is awaited behind
it. -/
theorem splitType_of_not_awaits (hs : Sealed s) (hblank : FreeOutside isBlank s)
    (hno : ¬Awaits outside false none s) :
    splitType s = (s, []) ∧ ∀ words, splitType (s ++ ' ' :: words) = (s, trim words) := by
  obtain ⟨colon, hcolon, hsplit⟩ := splitTypeFrom_append hs hblank false none
  obtain rfl : colon = false := Bool.eq_false_iff.2 fun h => hno (hcolon.1 h)
  constructor
  · have hend := hsplit []
    rw [List.append_nil] at hend
    exact hend.trans (by simp [splitTypeFrom])
  · intro words
    refine (hsplit (' ' :: words)).trans ?_
    rw [outside, splitTypeFrom_end, List.append_nil]

/-! ### The result type of a callable -/

/-- A callable with its parameters and the colon behind them. -/
def callableHead (params : Text) : Text := "callable".toList ++ '(' :: (params ++ [')']) ++ [':']

/-- A callable with its result type, which blanks may stand in front of. -/
def callableText (params gap result : Text) : Text := callableHead params ++ (gap ++ result)

/-- Behind a result type the splitter still waits for one: since the colon in front of it, or the
last colon behind parentheses in it, there were only brackets and quotations. -/
def AwaitsResult (result : Text) : Prop :=
  OnlyMarksFrom outside result ∨
    ∃ front back, result = front ++ ':' :: back ∧ Sealed front ∧ front.getLast? = some ')' ∧
      OnlyMarksFrom outside back

theorem awaits_iff_awaitsResult {result : Text} :
    Awaits outside true (some ':') result ↔ AwaitsResult result := by
  have hlast : ∀ front : Text,
      front.getLast?.or (some ':') = some ')' ↔ front.getLast? = some ')' := by
    intro front
    cases front.getLast? <;> simp
  simp only [Awaits, AwaitsResult, hlast, Sealed, true_and]

/-- Without a colon in it, a result type has to be made of brackets and quotations alone. -/
theorem awaitsResult_iff_of_not_mem {result : Text} (h : ':' ∉ result) :
    AwaitsResult result ↔ OnlyMarksFrom outside result := by
  refine or_iff_left ?_
  rintro ⟨front, back, rfl, -⟩
  exact h (by simp)

/-- Behind its colon, a callable is split as its result type is. -/
theorem splitType_callableHead_append {params : Text} (hparams : Balanced params) (t : Text) :
    splitType (callableHead params ++ t) =
      (callableHead params ++ (splitTypeFrom 0 none true (some ':') t).1,
        (splitTypeFrom 0 none true (some ':') t).2) := by
  have hword : Sealed "callable".toList := by decide
  have hinside := sealed_of_balanced hparams
  have hcall : Sealed ("callable".toList ++ '(' :: (params ++ [')'])) :=
    hword.append (hinside.between (by decide) (by decide))
  have hfree : FreeOutside isBlank ("callable".toList ++ '(' :: (params ++ [')'])) :=
    FreeOutside.append hword (by decide) (hinside.freeOutside_between (by decide) (by decide))
  have hsealed : Sealed (callableHead params) := hcall.append (by decide)
  have hblank : FreeOutside isBlank (callableHead params) :=
    FreeOutside.append hcall hfree (by decide)
  have hparen : ("callable".toList ++ '(' :: (params ++ [')'])).getLast? = some ')' := by
    rw [← List.cons_append, ← List.append_assoc, List.getLast?_concat]
  have hlast : (callableHead params).getLast? = some ':' := List.getLast?_concat
  obtain ⟨colon, hcolon, hsplit⟩ := splitTypeFrom_append hsealed hblank false none
  obtain rfl : colon = true :=
    hcolon.2 (Or.inr ⟨_, [], rfl, hcall, by rw [hparen]; rfl, allAt_nil _⟩)
  rw [hlast] at hsplit
  exact hsplit t

/-- Behind the colon, the words are split as the result type leaves the splitter. -/
theorem splitTypeFrom_result {gap result : Text} (hgap : AllBlank gap) (hresult : Sealed result)
    (hblank : FreeOutside isBlank result) :
    ∃ (waiting : Bool) (last : Option Char), (waiting = true ↔ AwaitsResult result) ∧ ∀ t,
      splitTypeFrom 0 none true (some ':') (gap ++ result ++ t) =
        (gap ++ result ++ (splitTypeFrom 0 none waiting last t).1,
          (splitTypeFrom 0 none waiting last t).2) := by
  obtain ⟨waiting, hwaiting, hsplit⟩ := splitTypeFrom_append hresult hblank true (some ':')
  refine ⟨waiting, result.getLast?.or (some ':'), hwaiting.trans awaits_iff_awaitsResult,
    fun t => ?_⟩
  have hsplit := hsplit t
  simp only [outside] at hsplit
  rw [List.append_assoc, splitTypeFrom_allBlank_append hgap, hsplit]
  simp only [List.append_assoc]

/-- While a result type is awaited, the type goes on with whatever follows. -/
theorem head?_splitTypeFrom_awaiting (last : Option Char) (words : Text) :
    (splitTypeFrom 0 none true last words).1.head? = words.head? := by
  cases words with
  | nil => rfl
  | cons c rest =>
      unfold splitTypeFrom
      simp only [if_true]
      split_ifs <;> rfl

/-- **A callable is cut off with its result type exactly when nothing is awaited behind that.**
Otherwise the type goes on with the space behind the result type and the first of the words. -/
theorem splitType_callable {params gap result words : Text} (hparams : Balanced params)
    (hgap : AllBlank gap) (hresult : Sealed result) (hblank : FreeOutside isBlank result) :
    (splitType (callableText params gap result ++ ' ' :: words) =
        (callableText params gap result, trim words) ↔ ¬AwaitsResult result) ∧
      (AwaitsResult result → ∃ more,
        (splitType (callableText params gap result ++ ' ' :: words)).1 =
          callableText params gap result ++ ' ' :: more ∧ more.head? = words.head?) := by
  obtain ⟨waiting, last, hwaiting, hsplit⟩ := splitTypeFrom_result hgap hresult hblank
  have hwhole : splitType (callableText params gap result ++ ' ' :: words) =
      (callableText params gap result ++ (splitTypeFrom 0 none waiting last (' ' :: words)).1,
        (splitTypeFrom 0 none waiting last (' ' :: words)).2) := by
    rw [callableText, List.append_assoc, splitType_callableHead_append hparams, hsplit]
    simp only [List.append_assoc]
  rw [hwhole]
  cases waiting with
  | false =>
      have hno : ¬AwaitsResult result := fun h => Bool.noConfusion (hwaiting.2 h)
      rw [splitTypeFrom_end, List.append_nil]
      exact ⟨iff_of_true rfl hno, fun h => absurd h hno⟩
  | true =>
      have hyes : AwaitsResult result := hwaiting.1 rfl
      have hlonger : ∀ more : Text, callableText params gap result ++ ' ' :: more ≠
          callableText params gap result := by simp
      rw [splitTypeFrom_blank_cons (by decide)]
      refine ⟨iff_of_false (fun h => hlonger _ (congrArg Prod.fst h)) (not_not_intro hyes),
        fun _ => ⟨_, rfl, head?_splitTypeFrom_awaiting last words⟩⟩

/-- A nullable array of pairs, or else a quoted text, is cut off with the callable. -/
theorem splitType_callable_of_union :
    splitType (callableText "int, A<B, (C)>".toList " ".toList "?array<int, 'a )'>|'b c'".toList ++
        ' ' :: "the callback ".toList) =
      (callableText "int, A<B, (C)>".toList " ".toList "?array<int, 'a )'>|'b c'".toList,
        "the callback".toList) := by
  have hresult : ¬AwaitsResult "?array<int, 'a )'>|'b c'".toList :=
    mt (awaitsResult_iff_of_not_mem (by decide)).1 (by decide)
  exact (splitType_callable (by decide) (by decide) (by decide) (by decide)).1.2 hresult

/-- A callable with a quoted text for its result type. -/
def quotedCallable : Text := callableText "int".toList " ".toList "'a'".toList

/-- The first word behind the quoted text is taken for the result type. -/
theorem splitType_callable_of_quoted :
    splitType (quotedCallable ++ ' ' :: "the callback".toList) =
        ("callable(int): 'a' the".toList, "callback".toList) ∧
      splitType (quotedCallable ++ ' ' :: "the callback".toList) ≠
        (quotedCallable, "the callback".toList) := by
  decide

end DocTag

end HintCheck
