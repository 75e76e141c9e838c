/-
**Brackets and quotations.**

Outside of a quotation a scanner counts brackets; inside of one it only waits for the mark that
ends it.  Where it stands is therefore a bracket depth together with the mark it waits for.  This
module follows a scanner through texts whose brackets and quotations are all closed.  It leaves such
a text where it entered it, and what matters of the text is which characters stand outside of all
brackets and quotations.

Main definitions:

* `HintCheck.Text.Standing`, `HintCheck.Text.Standing.after?` — where a scanner stands, and where it
  stands behind a text;
* `HintCheck.Text.Sealed` — a text whose brackets and quotations are all closed;
* `HintCheck.Text.Standing.AllAt`, `HintCheck.Text.FreeOutside` — what holds of each character where
  it stands, and of those outside of all brackets and quotations;
* `HintCheck.Text.quoted`, `HintCheck.Text.unquoted` — a text in quotation marks, and one without
  its marks.

Main results:

* `HintCheck.Text.Standing.next?_cases` — what a step of the scanner can do;
* `HintCheck.Text.sealed_of_balanced`, `HintCheck.Text.sealed_quoted`,
  `HintCheck.Text.Sealed.append`, `HintCheck.Text.Sealed.between` — which texts are sealed;
* `HintCheck.Text.splitTop_sealed_append`, `HintCheck.Text.splitTop_of_freeOutside` — **a sealed
  text is cut where a separator stands outside**;
* `HintCheck.Text.splitTop_intercalate` — sealed texts that are joined come back;
* `HintCheck.Text.untilClosed_append_of_unquoted` — the search for the end of a bracket passes over
  quotation marks as over any other character.
-/

import HintCheck.Proofs.Text.Spaced
import HintCheck.Proofs.Text.TopLevel

set_option relaxedAutoImplicit false
set_option autoImplicit false

namespace HintCheck

namespace Text

/-! ### Where a scanner stands -/

/-- Where a scanner stands: in so many brackets, and perhaps in a quotation that a mark ends. -/
structure Standing where
  depth : Nat
  quote : Option Char
  deriving DecidableEq

namespace Standing

/-- Outside of all brackets and quotations. -/
def outside : Standing := ⟨0, none⟩

/-- Where it stands behind a character; nowhere when that closes a bracket that was not opened. -/
def next? : Standing → Char → Option Standing
  | ⟨d, some q⟩, c => some ⟨d, if c = q then none else some q⟩
  | ⟨d, none⟩, c => if isQuote c then some ⟨d, some c⟩ else (depthStep? d c).map (⟨·, none⟩)

/-- Where it stands behind a text. -/
def after? (σ : Standing) (cs : Text) : Option Standing := cs.foldlM next? σ

variable {σ τ : Standing} {c : Char} {s t : Text}

/-- What a step of the scanner can do. -/
theorem next?_cases (h : σ.next? c = some τ) :
    (∃ q, σ.quote = some q ∧ τ = ⟨σ.depth, if c = q then none else some q⟩) ∨
      (σ.quote = none ∧ isQuote c = true ∧ τ = ⟨σ.depth, some c⟩) ∨
      (σ.quote = none ∧ isQuote c = false ∧
        ∃ e, depthStep? σ.depth c = some e ∧ τ = ⟨e, none⟩) := by
  obtain ⟨d, q⟩ := σ
  cases q with
  | some q => exact Or.inl ⟨q, rfl, (Option.some_inj.1 h).symm⟩
  | none =>
      simp only [next?] at h
      split at h
      · next hq => exact Or.inr (Or.inl ⟨rfl, hq, (Option.some_inj.1 h).symm⟩)
      · next hq =>
        obtain ⟨e, he, rfl⟩ := Option.map_eq_some_iff.1 h
        exact Or.inr (Or.inr ⟨rfl, by simpa using hq, e, he, rfl⟩)

theorem next?_of_depthStep? {d e : Nat} (h : depthStep? d c = some e) :
    next? ⟨d, none⟩ c = some ⟨e, none⟩ := by
  simp [next?, (depthStep?_cases h).1, h]

@[simp] theorem after?_nil (σ : Standing) : σ.after? [] = some σ := rfl

theorem after?_cons (σ : Standing) (c : Char) (cs : Text) :
    σ.after? (c :: cs) = (σ.next? c).bind fun τ => τ.after? cs := by
  simp [after?]

theorem after?_cons_of_next? (h : σ.next? c = some τ) (cs : Text) :
    σ.after? (c :: cs) = τ.after? cs := by
  rw [after?_cons, h, Option.bind_some]

/-- A scanner that gets through a text gets through its first character. -/
theorem after?_cons_eq_some {cs : Text} :
    σ.after? (c :: cs) = some τ ↔ ∃ ρ, σ.next? c = some ρ ∧ ρ.after? cs = some τ := by
  rw [after?_cons, Option.bind_eq_some_iff]

theorem after?_append_of_eq_some (h : σ.after? s = some τ) (t : Text) :
    σ.after? (s ++ t) = τ.after? t := by
  rw [after?, List.foldlM_append]
  exact (congrArg (· >>= fun ρ => ρ.after? t) h).trans rfl

/-- A scanner that gets through a text gets through every beginning of it. -/
theorem exists_after?_of_append (h : σ.after? (s ++ t) = some τ) : ∃ ρ, σ.after? s = some ρ := by
  rw [after?, List.foldlM_append] at h
  obtain ⟨ρ, hρ, -⟩ := Option.bind_eq_some_iff.1 h
  exact ⟨ρ, hρ⟩

/-- Without quotation marks the scanner is the bracket counter. -/
theorem after?_of_depthAfter? {d e : Nat} (h : depthAfter? d s = some e) :
    after? ⟨d, none⟩ s = some ⟨e, none⟩ := by
  induction s generalizing d with
  | nil =>
      obtain rfl := Option.some_inj.1 h
      rfl
  | cons c cs ih =>
      obtain ⟨d', hd, h⟩ := depthAfter?_cons_eq_some.1 h
      rw [after?_cons_of_next? (next?_of_depthStep? hd), ih h]

/-- A quotation waits for the mark that began it. -/
theorem isQuote_of_after? {s : Text} {σ τ : Standing} (hσ : ∀ q ∈ σ.quote, isQuote q = true)
    (h : σ.after? s = some τ) : ∀ q ∈ τ.quote, isQuote q = true := by
  induction s generalizing σ with
  | nil =>
      obtain rfl := Option.some_inj.1 h
      exact hσ
  | cons c cs ih =>
      obtain ⟨ρ, hρ, h⟩ := after?_cons_eq_some.1 h
      refine ih (fun q hq => ?_) h
      obtain ⟨m, hm, rfl⟩ | ⟨-, hc, rfl⟩ | ⟨-, -, e, -, rfl⟩ := next?_cases hρ
      · by_cases hcm : c = m
        · simp [hcm] at hq
        · obtain rfl : m = q := by simpa [hcm] using hq
          exact hσ m hm
      · obtain rfl : c = q := by simpa using hq
        exact hc
      · simp at hq

/-- A plain character leaves the scanner where it stands. -/
theorem next?_of_isPlain (hc : IsPlain c) (hσ : ∀ q ∈ σ.quote, isQuote q = true) :
    σ.next? c = some σ := by
  obtain ⟨d, q⟩ := σ
  cases q with
  | none => exact next?_of_depthStep? (depthStep?_of_isPlain hc d)
  | some q =>
      have hne : c ≠ q := by
        rintro rfl
        exact absurd (hσ c rfl) (by simp [hc.isQuote])
      simp [next?, hne]

/-- In some more brackets, the scanner does what it does. -/
theorem next?_add (h : σ.next? c = some τ) (k : Nat) :
    next? ⟨σ.depth + k, σ.quote⟩ c = some ⟨τ.depth + k, τ.quote⟩ := by
  obtain ⟨d, q⟩ := σ
  obtain ⟨q, rfl, rfl⟩ | ⟨rfl, hq, rfl⟩ | ⟨rfl, hq, e, he, rfl⟩ := next?_cases h
  · rfl
  · simp [next?, hq]
  · exact next?_of_depthStep? (depthStep?_add he k)

theorem after?_add (h : σ.after? s = some τ) (k : Nat) :
    after? ⟨σ.depth + k, σ.quote⟩ s = some ⟨τ.depth + k, τ.quote⟩ := by
  induction s generalizing σ with
  | nil =>
      obtain rfl := Option.some_inj.1 h
      rfl
  | cons c cs ih =>
      obtain ⟨ρ, hρ, h⟩ := after?_cons_eq_some.1 h
      rw [after?_cons_of_next? (next?_add hρ k), ih h]

/-- A quotation goes on up to its mark. -/
theorem after?_of_not_mem {m : Char} (d : Nat) (h : m ∉ s) :
    after? ⟨d, some m⟩ s = some ⟨d, some m⟩ := by
  induction s with
  | nil => rfl
  | cons c cs ih =>
      rw [List.mem_cons, not_or] at h
      have hnext : next? ⟨d, some m⟩ c = some ⟨d, some m⟩ := by simp [next?, Ne.symm h.1]
      rw [after?_cons_of_next? hnext, ih h.2]

/-! ### What stands where -/

/-- Each character of a text has a property at the place where it stands. -/
def AllAt (P : Standing → Char → Prop) (σ : Standing) (cs : Text) : Prop :=
  ∀ front c back τ, cs = front ++ c :: back → σ.after? front = some τ → P τ c

variable {P : Standing → Char → Prop}

theorem allAt_nil (σ : Standing) : AllAt P σ [] := by
  intro front c back τ h
  simp at h

/-- The condition on a text is one on its first character, and one on what follows it. -/
theorem allAt_cons {cs : Text} :
    AllAt P σ (c :: cs) ↔ P σ c ∧ ∀ τ, σ.next? c = some τ → AllAt P τ cs := by
  constructor
  · intro h
    refine ⟨h [] c cs σ rfl rfl, fun τ hτ front a back ρ hcs hρ => ?_⟩
    exact h (c :: front) a back ρ (by rw [hcs]; rfl) (by rw [after?_cons_of_next? hτ, hρ])
  · rintro ⟨hfirst, hrest⟩ front a back ρ h hρ
    cases front with
    | nil =>
        simp only [List.nil_append, List.cons.injEq] at h
        cases hρ
        exact h.1 ▸ hfirst
    | cons b front =>
        simp only [List.cons_append, List.cons.injEq] at h
        obtain ⟨rfl, h⟩ := h
        obtain ⟨τ, hτ, hρ⟩ := after?_cons_eq_some.1 hρ
        exact hrest τ hτ front a back ρ h hρ

/-- What holds of each character where it stands can be decided from left to right. -/
def decideAllAt (P : Standing → Char → Prop) [∀ σ c, Decidable (P σ c)] :
    (σ : Standing) → (cs : Text) → Decidable (AllAt P σ cs)
  | σ, [] => isTrue (allAt_nil σ)
  | σ, c :: cs =>
    match h : σ.next? c with
    | none => decidable_of_iff (P σ c) (by simp [allAt_cons, h])
    | some τ =>
      have := decideAllAt P τ cs
      decidable_of_iff (P σ c ∧ AllAt P τ cs) (by simp [allAt_cons, h])

instance [∀ σ c, Decidable (P σ c)] (σ : Standing) (cs : Text) : Decidable (AllAt P σ cs) :=
  decideAllAt P σ cs

theorem AllAt.append (hτ : σ.after? s = some τ) (hs : AllAt P σ s) (ht : AllAt P τ t) :
    AllAt P σ (s ++ t) := by
  induction s generalizing σ with
  | nil =>
      obtain rfl := Option.some_inj.1 hτ
      exact ht
  | cons c cs ih =>
      obtain ⟨ρ, hρ, hτ⟩ := after?_cons_eq_some.1 hτ
      obtain ⟨hfirst, hrest⟩ := allAt_cons.1 hs
      refine allAt_cons.2 ⟨hfirst, fun ρ' hρ' => ?_⟩
      obtain rfl := Option.some_inj.1 (hρ.symm.trans hρ')
      exact ih hτ (hrest ρ hρ)

theorem allAt_of_forall (σ : Standing) (h : ∀ τ, ∀ c ∈ s, P τ c) : AllAt P σ s :=
  fun _ c _ τ hs _ => h τ c (by rw [hs]; simp)

end Standing

open Standing

/-! ### Sealed texts -/

/-- A text whose brackets and quotations are all closed. -/
def Sealed (cs : Text) : Prop := outside.after? cs = some outside

instance (cs : Text) : Decidable (Sealed cs) :=
  inferInstanceAs (Decidable (outside.after? cs = some outside))

/-- A text in quotation marks. -/
def quoted (mark : Char) (cs : Text) : Text := mark :: (cs ++ [mark])

theorem sealed_of_balanced {s : Text} (h : Balanced s) : Sealed s := after?_of_depthAfter? h

theorem Sealed.append {s t : Text} (hs : Sealed s) (ht : Sealed t) : Sealed (s ++ t) :=
  (after?_append_of_eq_some hs t).trans ht

/-- Behind the first of two marks a quotation is open. -/
theorem after?_mark_append {m : Char} (hm : isQuote m = true) {q : Text} (hq : m ∉ q) :
    outside.after? (m :: q) = some ⟨0, some m⟩ := by
  have hopen : outside.next? m = some ⟨0, some m⟩ := by simp [next?, outside, hm]
  rw [after?_cons_of_next? hopen, after?_of_not_mem 0 hq]

theorem sealed_quoted {m : Char} (hm : isQuote m = true) {q : Text} (hq : m ∉ q) :
    Sealed (quoted m q) := by
  rw [Sealed, quoted, ← List.cons_append,
    after?_append_of_eq_some (after?_mark_append hm hq)]
  simp [after?_cons, next?, outside]

/-- A pair of brackets around a sealed text. -/
theorem Sealed.between {s : Text} (hs : Sealed s) {o c : Char} (ho : isOpen o = true)
    (hc : isClose c = true) : Sealed (o :: (s ++ [c])) := by
  have hinside : after? ⟨0 + 1, none⟩ s = some ⟨0 + 1, none⟩ := after?_add hs 1
  rw [Sealed, outside, after?_cons_of_next? (next?_of_depthStep? (depthStep?_of_isOpen ho 0)),
    after?_append_of_eq_some hinside]
  exact after?_cons_of_next? (next?_of_depthStep? (depthStep?_of_isClose hc 0)) []

/-! ### What stands outside -/

/-- No character of a class stands outside of all brackets and quotations. -/
def FreeOutside (p : Char → Bool) (cs : Text) : Prop :=
  outside.AllAt (fun σ c => σ = outside → p c = false) cs

instance (p : Char → Bool) (cs : Text) : Decidable (FreeOutside p cs) :=
  inferInstanceAs (Decidable (outside.AllAt _ cs))

variable {p : Char → Bool}

theorem freeOutside_of_forall {s : Text} (h : ∀ c ∈ s, p c = false) : FreeOutside p s :=
  allAt_of_forall _ fun _ c hc _ => h c hc

theorem FreeOutside.append {s t : Text} (hsealed : Sealed s) (hs : FreeOutside p s)
    (ht : FreeOutside p t) : FreeOutside p (s ++ t) :=
  AllAt.append hsealed hs ht

/-- What stands outside in a beginning of a text stands outside in the text. -/
theorem FreeOutside.left {s t : Text} (h : FreeOutside p (s ++ t)) : FreeOutside p s :=
  fun front c back τ hs hτ => h front c (back ++ t) τ (by simp [hs]) hτ

/-- What stands outside in a balanced text stands at depth zero. -/
theorem freeOutside_of_topFree {separator : Char} {s : Text} (hs : Balanced s)
    (hfree : TopFree separator s) : FreeOutside (· == separator) s := by
  rintro front c back τ rfl hτ rfl
  refine Bool.eq_false_iff.2 fun hc => ?_
  obtain rfl : c = separator := by simpa using hc
  obtain ⟨m, hm⟩ := exists_depthAfter?_of_append hs
  have hzero := (after?_of_depthAfter? hm).symm.trans hτ
  simp only [outside, Option.some.injEq, Standing.mk.injEq, and_true] at hzero
  exact hfree front back rfl (hzero ▸ hm)

/-- Inside brackets nothing stands outside. -/
theorem allAt_deeper {s : Text} {σ τ : Standing} (h : σ.after? s = some τ) {k : Nat} (hk : 0 < k) :
    AllAt (fun ρ c => ρ = outside → p c = false) ⟨σ.depth + k, σ.quote⟩ s := by
  rintro front c back ρ rfl hρ rfl
  obtain ⟨ρ', hρ'⟩ := exists_after?_of_append h
  have hdepth := (after?_add hρ' k).symm.trans hρ
  simp only [outside, Option.some.injEq, Standing.mk.injEq] at hdepth
  omega

/-- Of a pair of brackets around a sealed text, only the opening one stands outside. -/
theorem Sealed.freeOutside_between {s : Text} (hs : Sealed s) {o c : Char} (ho : isOpen o = true)
    (hp : p o = false) : FreeOutside p (o :: (s ++ [c])) := by
  have hopen : outside.next? o = some ⟨0 + 1, none⟩ :=
    next?_of_depthStep? (depthStep?_of_isOpen ho 0)
  refine allAt_cons.2 ⟨fun _ => hp, fun τ hτ => ?_⟩
  obtain rfl := Option.some_inj.1 (hopen.symm.trans hτ)
  refine AllAt.append (after?_add hs 1) (allAt_deeper hs Nat.one_pos) ?_
  refine allAt_cons.2 ⟨fun h => ?_, fun τ _ => allAt_nil τ⟩
  simp [outside] at h

/-- Of a quotation, only the mark in front stands outside. -/
theorem freeOutside_quoted {m : Char} (hm : isQuote m = true) {q : Text} (hq : m ∉ q)
    (hp : p m = false) : FreeOutside p (quoted m q) := by
  have hopen : outside.next? m = some ⟨0, some m⟩ := by simp [next?, outside, hm]
  refine allAt_cons.2 ⟨fun _ => hp, fun τ hτ => ?_⟩
  obtain rfl := Option.some_inj.1 (hopen.symm.trans hτ)
  rintro front c back ρ hcs hρ rfl
  have hfront : m ∉ front := by
    intro hmem
    obtain ⟨front', back', hsplit⟩ := List.append_of_mem hmem
    have hlen : front ≠ q ++ [m] := fun h => by
      have := congrArg List.length hcs
      simp [h] at this
    have hbegins : front <+: q := by
      have h : front <+: q ++ [m] := ⟨_, hcs.symm⟩
      exact (List.prefix_concat_iff.1 h).resolve_left hlen
    exact hq (hbegins.subset hmem)
  rw [after?_of_not_mem 0 hfront] at hρ
  simp [outside] at hρ

/-- A text without blanks outside neither begins nor ends with one. -/
theorem tight_of_freeOutside {s : Text} (hs : Sealed s) (hne : s ≠ [])
    (hfree : FreeOutside isBlank s) : Tight s where
  head := by
    obtain ⟨c, cs, rfl⟩ := List.exists_cons_of_ne_nil hne
    exact ⟨c, rfl, hfree [] c cs outside rfl rfl rfl⟩
  last := by
    refine ⟨s.getLast hne, List.getLast?_eq_some_getLast hne, ?_⟩
    have hsplit := List.dropLast_concat_getLast hne
    rw [Sealed, ← hsplit] at hs
    obtain ⟨ρ, hρ⟩ := exists_after?_of_append hs
    rw [after?_append_of_eq_some hρ] at hs
    obtain ⟨τ, hτ, hend⟩ := after?_cons_eq_some.1 hs
    obtain rfl := Option.some_inj.1 hend
    refine Bool.eq_false_iff.2 fun hblank => ?_
    -- behind the blank the scanner stands outside, and so it did in front of it
    have hstay := next?_of_isPlain (isPlain_of_isBlank hblank)
      (isQuote_of_after? (by simp [outside]) hρ)
    obtain rfl := Option.some_inj.1 ((after?_cons_of_next? hstay []).symm.trans hs)
    exact absurd (hfree _ _ [] _ hsplit.symm hρ rfl) (by simp [hblank])

/-! ### Cutting sealed texts -/

/-- Puts a text in front of the first piece. -/
def pushText (s : Text) (pieces : List Text) : List Text := s.foldr pushFirst pieces

theorem pushText_cons (s p : Text) (ps : List Text) : pushText s (p :: ps) = (s ++ p) :: ps := by
  induction s with
  | nil => rfl
  | cons c cs ih =>
      rw [pushText, List.foldr_cons, ← pushText, ih]
      rfl

/-- A text without a separator outside goes to the first piece. -/
theorem splitTopFrom_append_of_after? {separator : Char} {σ τ : Standing} {s : Text}
    (h : σ.after? s = some τ)
    (hfree : σ.AllAt (fun ρ c => ρ = outside → (c == separator) = false) s) (t : Text) :
    splitTopFrom separator σ.depth σ.quote (s ++ t) =
      pushText s (splitTopFrom separator τ.depth τ.quote t) := by
  induction s generalizing σ with
  | nil =>
      obtain rfl := Option.some_inj.1 h
      rfl
  | cons c cs ih =>
      obtain ⟨ρ, hρ, h⟩ := after?_cons_eq_some.1 h
      obtain ⟨hfirst, hrest⟩ := allAt_cons.1 hfree
      have hpush : pushText (c :: cs) (splitTopFrom separator τ.depth τ.quote t) =
          pushFirst c (splitTopFrom separator ρ.depth ρ.quote (cs ++ t)) := by
        rw [ih h (hrest ρ hρ)]
        rfl
      rw [hpush]
      obtain ⟨d, q⟩ := σ
      obtain ⟨q, rfl, rfl⟩ | ⟨rfl, hq, rfl⟩ | ⟨rfl, hq, e, he, rfl⟩ := next?_cases hρ
      · rfl
      · simp [splitTopFrom, hq]
      · refine splitTopFrom_cons_of_step he ?_ (cs ++ t)
        rintro ⟨rfl, hd⟩
        simpa using hfirst (by rw [outside]; simpa using hd)

/-- Without a separator outside there is one piece. -/
theorem splitTop_of_freeOutside {separator : Char} {s : Text} {τ : Standing}
    (hs : outside.after? s = some τ) (hfree : FreeOutside (· == separator) s) :
    splitTop separator s = [trim s] := by
  have h := splitTopFrom_append_of_after? hs hfree []
  simp only [List.append_nil, splitTopFrom, pushText_cons] at h
  exact congrArg (List.map trim) h

/-- **A sealed text is cut off** in front of a separator. -/
theorem splitTop_sealed_append {separator : Char} (hsep : IsPlain separator) {s : Text}
    (hs : Sealed s) (hfree : FreeOutside (· == separator) s) (t : Text) :
    splitTop separator (s ++ separator :: t) = trim s :: splitTop separator t := by
  have h := splitTopFrom_append_of_after? hs hfree (separator :: t)
  rw [outside, splitTopFrom_cons_separator hsep, pushText_cons, List.append_nil] at h
  exact congrArg (List.map trim) h

/-- **Texts that are joined come back**, when they are sealed and no separator stands outside in
them. -/
theorem splitTop_intercalate {separator : Char} (hsep : IsSeparator separator) {w : Text}
    (hw : AllBlank w) {ps : List Text} (hne : ps ≠ [])
    (h : ∀ p ∈ ps, Sealed p ∧ FreeOutside (· == separator) p) :
    splitTop separator ((separator :: w).intercalate ps) = ps.map trim := by
  induction ps with
  | nil => exact absurd rfl hne
  | cons p ps ih =>
      obtain ⟨hsealed, hfree⟩ := h p List.mem_cons_self
      cases ps with
      | nil => simpa using splitTop_of_freeOutside hsealed hfree
      | cons q qs =>
          have ih := ih (by simp) fun r hr => h r (List.mem_cons_of_mem _ hr)
          rw [List.intercalate_cons_cons, List.append_assoc, List.cons_append,
            splitTop_sealed_append hsep.toIsPlain hsealed hfree,
            splitTop_of_allBlank_append hsep.isBlank hw, ih, List.map_cons (l := q :: qs)]

/-! ### The end of a bracket -/

/-- A text without its quotation marks. -/
def unquoted (cs : Text) : Text := cs.filter (!isQuote ·)

theorem unquoted_append (s t : Text) : unquoted (s ++ t) = unquoted s ++ unquoted t :=
  List.filter_append ..

/-- A text without quotation marks stays as it is. -/
theorem unquoted_of_depthAfter? {d e : Nat} {s : Text} (h : depthAfter? d s = some e) :
    unquoted s = s := by
  induction s generalizing d with
  | nil => rfl
  | cons c cs ih =>
      obtain ⟨d', hd, h⟩ := depthAfter?_cons_eq_some.1 h
      rw [unquoted, List.filter_cons_of_pos (by simp [(depthStep?_cases hd).1])]
      exact congrArg _ (ih h)

theorem unquoted_quoted {m : Char} (hm : isQuote m = true) (q : Text) :
    unquoted (quoted m q) = unquoted q := by
  simp [unquoted, quoted, hm]

/-- The search for the end of a bracket counts the brackets in quotations too. -/
theorem untilClosed_append_of_unquoted {d e : Nat} {s : Text}
    (hs : depthAfter? d (unquoted s) = some e) (t : Text) :
    untilClosed d (s ++ t) = (untilClosed e t).map fun r => (s ++ r.1, r.2) := by
  induction s generalizing d with
  | nil =>
      obtain rfl := Option.some_inj.1 hs
      simp
  | cons c cs ih =>
      by_cases hq : isQuote c = true
      · have hskip : unquoted (c :: cs) = unquoted cs := by simp [unquoted, hq]
        have ho : isOpen c = false :=
          Bool.eq_false_iff.2 fun ho => by simp [isQuote_eq_false_of_isOpen ho] at hq
        have hc : isClose c = false :=
          Bool.eq_false_iff.2 fun hc => by simp [isQuote_eq_false_of_isClose hc] at hq
        rw [hskip] at hs
        have hpass : untilClosed d (c :: (cs ++ t)) =
            (untilClosed d (cs ++ t)).map (consInside c) := by
          simp [untilClosed, ho, hc]
        rw [List.cons_append, hpass, ih hs, Option.map_map]
        rfl
      · have hkeep : unquoted (c :: cs) = c :: unquoted cs := by simp [unquoted, hq]
        rw [hkeep] at hs
        obtain ⟨d', hd, hs⟩ := depthAfter?_cons_eq_some.1 hs
        rw [List.cons_append, untilClosed_cons_of_step hd, ih hs, Option.map_map]
        rfl

/-- The brackets of a text are counted to its end, or one of them closes nothing. -/
theorem depthAfter?_or_exists_isClose (d : Nat) (s : Text) :
    (∃ e, depthAfter? d (unquoted s) = some e) ∨
      ∃ front c back, s = front ++ c :: back ∧ isClose c = true ∧
        depthAfter? d (unquoted front) = some 0 := by
  induction s generalizing d with
  | nil => exact Or.inl ⟨d, rfl⟩
  | cons c cs ih =>
      -- what holds of the rest holds of the text, when the counter gets through `c`
      have hstep : ∀ d', (∀ t, depthAfter? d (unquoted (c :: t)) = depthAfter? d' (unquoted t)) →
          (∃ e, depthAfter? d (unquoted (c :: cs)) = some e) ∨
            ∃ front a back, c :: cs = front ++ a :: back ∧ isClose a = true ∧
              depthAfter? d (unquoted front) = some 0 := by
        intro d' hd
        rcases ih d' with ⟨e, he⟩ | ⟨front, a, back, rfl, ha, hfront⟩
        · exact Or.inl ⟨e, (hd cs).trans he⟩
        · exact Or.inr ⟨c :: front, a, back, rfl, ha, (hd front).trans hfront⟩
      by_cases hq : isQuote c = true
      · exact hstep d fun t => by simp [unquoted, hq]
      · cases hc : depthStep? d c with
        | some d' =>
            refine hstep d' fun t => ?_
            have hkeep : unquoted (c :: t) = c :: unquoted t := by simp [unquoted, hq]
            rw [hkeep, depthAfter?_cons, hc, Option.bind_some]
        | none =>
            obtain ⟨rfl, hclose⟩ : d = 0 ∧ isClose c = true := by
              unfold depthStep? at hc
              grind
            exact Or.inr ⟨[], c, cs, rfl, hclose, rfl⟩

end Text

end HintCheck
