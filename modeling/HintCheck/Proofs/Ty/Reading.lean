/-
**What holds of every type that is read.**

The reader takes a text apart and builds a type from what it makes of the parts.  A property that
types are built with at each of these steps therefore holds of whatever is read, however malformed
the text.  The property may relate a type to the part of the text that it was read from.

Main definitions:

* `HintCheck.Ty.KeptByReading` — the property is kept by every step of the reader.

Main results:

* `HintCheck.Ty.named?_eq_some` — a name with a bracket behind it, as it stands in a text;
* `HintCheck.Ty.KeptByReading.read` — **what every step keeps holds of every type that is read.**
-/

import HintCheck.Proofs.Text.TopLevel
import HintCheck.Proofs.Ty.Name

set_option relaxedAutoImplicit false
set_option autoImplicit false

namespace HintCheck

namespace Ty

open Text

/-! ### The parts of a text -/

theorem leadingMarks_suffix (cs : Text) : (leadingMarks cs).1 <:+ cs := by
  fun_induction leadingMarks cs with
  | case1 cs r ih =>
      have hpair : cs <:+ ']' :: '[' :: cs := ⟨[']', '['], rfl⟩
      exact (ih.trans (List.dropWhile_suffix isBlank)).trans hpair
  | case2 cs => exact List.suffix_refl cs

/-- A text is as long at least as what is left of it and the number of its array brackets. -/
theorem length_add_arrayMarks_le (cs : Text) :
    (arrayMarks cs).1.length + (arrayMarks cs).2 ≤ cs.length := by
  have hmarks : ∀ cs : Text, (leadingMarks cs).1.length + (leadingMarks cs).2 ≤ cs.length := by
    intro cs
    fun_induction leadingMarks cs with
    | case1 cs r ih =>
        have hskip := length_dropWhile_le isBlank cs
        have hrest : r.1.length + r.2 ≤ (cs.dropWhile isBlank).length := ih
        simp only [List.length_cons]
        omega
    | case2 cs => exact Nat.le_refl _
  simpa [arrayMarks] using hmarks cs.reverse

/-- Without its array brackets a text is a beginning of itself. -/
theorem prefix_arrayMarks (cs : Text) : (arrayMarks cs).1 <+: cs := by
  have h := List.reverse_prefix.2 (leadingMarks_suffix cs.reverse)
  rwa [List.reverse_reverse] at h

theorem infix_of_untilClosed {d : Nat} {cs inside rest : Text}
    (h : untilClosed d cs = some (inside, rest)) : inside <:+: cs := by
  obtain ⟨c, _, rfl⟩ := untilClosed_eq_some h
  exact (List.prefix_append _ _).isInfix

theorem infix_of_parenthesized? {cs inside : Text} (h : parenthesized? cs = some inside) :
    inside <:+: cs := by
  unfold parenthesized? at h
  split at h
  · next cs =>
    split at h
    · next hclosed =>
      cases h
      exact (infix_of_untilClosed hclosed).trans (List.suffix_cons _ cs).isInfix
    · cases h
  · cases h

/-- A name with a bracket behind it, as it stands in the text: only blanks come in between. -/
theorem named?_eq_some {cs name tail : Text} {bracket : Char}
    (h : named? cs = some (name, bracket, tail)) :
    opensPart bracket = true ∧
      ∃ w gap, AllBlank gap ∧ cs = w ++ (name ++ gap ++ bracket :: tail) := by
  unfold named? at h
  split at h
  · next name' bracket' tail' hname hrest =>
    cases h
    have htrim : trim (cs.takeWhile (!opensPart ·)) = name := by
      unfold trim? at hname
      split at hname
      · cases hname
      · next hcons => exact hcons.trans (Option.some.inj hname)
    have hbracket := List.head_dropWhile_not (!opensPart ·) (l := cs) (by simp [hrest])
    obtain ⟨w, gap, _, hgap, hfront⟩ := exists_append_trim (cs.takeWhile (!opensPart ·))
    rw [htrim] at hfront
    refine ⟨by simpa [hrest] using hbracket, w, gap, hgap, ?_⟩
    calc cs = cs.takeWhile (!opensPart ·) ++ cs.dropWhile (!opensPart ·) :=
          List.takeWhile_append_dropWhile.symm
      _ = w ++ (name ++ gap ++ bracket :: tail) := by rw [hfront, hrest]; simp
  · cases h

/-- A parameter in angle brackets is a shorter part of the text. -/
theorem shorter_of_mem_params {cs name tail inside rest param : Text}
    (hname : named? cs = some (name, '<', tail))
    (hclosed : untilClosed 0 tail = some (inside, rest))
    (hparam : param ∈ splitTop ',' inside) : param.length < cs.length ∧ param <:+: cs := by
  constructor
  · have hlength := length_of_named? hname
    have hinside := length_of_untilClosed hclosed
    have hshort := length_le_of_mem_splitTop hparam
    omega
  · obtain ⟨_, w, gap, _, rfl⟩ := named?_eq_some hname
    have htail : tail <:+: w ++ (name ++ gap ++ '<' :: tail) :=
      ⟨w ++ (name ++ gap ++ ['<']), [], by simp⟩
    exact ((infix_of_mem_splitTop hparam).trans (infix_of_untilClosed hclosed)).trans htail

/-! ### The steps of the reader -/

/-- What holds of the parts of one text and of the types that they are read as, when every step of
the reader keeps it. -/
structure KeptByReading (text : Text) (P : Text → Ty → Prop) : Prop where
  /-- A type belongs to a longer part as well. -/
  widen {part whole : Text} {t : Ty} : part <:+: whole → P part t → P whole t
  /-- Nothing is there to be read. -/
  absent (part : Text) : P part undefined
  /-- A quoted text or a number. -/
  builtin (part : Text) (a : Atom) : P part (atom a)
  /-- A name on its own. -/
  word {part : Text} : part <:+: text → named? part = none →
    P part ((keyword part).getD (named part))
  /-- A name with parameters in angle brackets. -/
  params {part name tail : Text} {params : List (Text × Ty)} :
    named? part = some (name, '<', tail) →
    (∀ p ∈ params, p.1.length < part.length ∧ P p.1 p.2) → P part (ofParams name params)
  /-- A name with an angle bracket that is not closed. -/
  unclosed {part name tail : Text} : part <:+: text → named? part = some (name, '<', tail) →
    P part (named part)
  /-- A name with a description of its fields. -/
  shape {part name tail : Text} : part <:+: text → named? part = some (name, '{', tail) →
    P part (ofShape part name)
  /-- A name with parameters in parentheses. -/
  callable {part name tail : Text} : part <:+: text → named? part = some (name, '(', tail) →
    P part (ofCallable name)
  /-- Several alternatives. -/
  unionOf {part : Text} {ts : List Ty} : (∀ t ∈ ts, P part t) → P part (unionOf ts)
  /-- A question mark in front. -/
  nullable {part : Text} {t : Ty} : P part t → P part (nullable t)
  /-- Pairs of brackets at the end. -/
  arrayOf {part base : Text} {e : Ty} {d : Nat} : base.length + d ≤ part.length →
    e ≠ undefined → P base e → P part (arrayOf e d)

namespace KeptByReading

variable {text : Text} {P : Text → Ty → Prop} (h : KeptByReading text P)

include h

theorem numeral {part number : Text} {t : Ty} (ht : numeral? number = some t) : P part t := by
  have hcases : t = atom .int ∨ t = atom .float := by
    unfold numeral? at ht
    grind
  rcases hcases with rfl | rfl <;> exact h.builtin part _

theorem ofAlternatives {part : Text} {ts : List Ty} (hts : ∀ t ∈ ts, P part t) :
    P part (ofAlternatives ts) := by
  match ts with
  | [] => exact h.unionOf hts
  | [t] => exact hts t (by simp)
  | t :: t' :: ts => exact h.unionOf hts

/-- It holds of a base when it holds of every shorter part of the text. -/
theorem readBase {base : Text} (hbase : base <:+: text)
    (ih : ∀ part : Text, part.length < base.length → part <:+: text → P part (read part)) :
    P base (readBase base) := by
  cases hparens : parenthesized? base with
  | some inside =>
      rw [readBase_of_parenthesized hparens]
      have hinside := infix_of_parenthesized? hparens
      exact h.widen hinside (ih inside (length_of_parenthesized? hparens) (hinside.trans hbase))
  | none =>
      rw [readBase_of_not_parenthesized hparens]
      split
      · exact h.builtin base .string
      · split
        · next hnumeral => exact h.numeral hnumeral
        · cases hname : named? base with
          | none => exact h.word hbase hname
          | some r =>
              obtain ⟨name, bracket, tail⟩ := r
              rcases opensPart_iff.1 (named?_eq_some hname).1 with rfl | rfl | rfl
              · cases hclosed : untilClosed 0 tail with
                | none =>
                    simp only [hclosed]
                    exact h.unclosed hbase hname
                | some r =>
                    simp only [hclosed]
                    refine h.params hname fun p hp => ?_
                    obtain ⟨param, hparam, rfl⟩ := List.mem_map.1 hp
                    obtain ⟨hshort, hpart⟩ := shorter_of_mem_params hname hclosed hparam
                    exact ⟨hshort, ih param hshort (hpart.trans hbase)⟩
              · exact h.shape hbase hname
              · exact h.callable hbase hname

/-- It holds of an alternative when it holds of every shorter part of the text. -/
theorem readMember (cs : Text) (hcs : cs <:+: text)
    (ih : ∀ part : Text, part.length < cs.length → part <:+: text → P part (read part)) :
    P cs (readMember cs) := by
  cases htrim : trim cs with
  | nil =>
      rw [readMember_of_trim_nil htrim]
      exact h.absent cs
  | cons c rest =>
      have htrimmed : c :: rest <:+: cs := htrim ▸ infix_trim cs
      have hlen := htrimmed.length_le
      rw [List.length_cons] at hlen
      by_cases hc : c = '?'
      · subst hc
        rw [readMember_of_trim_optional htrim]
        have hrest : rest <:+: cs := (List.suffix_cons '?' rest).isInfix.trans htrimmed
        refine h.nullable (h.widen hrest ?_)
        exact readMember rest (hrest.trans hcs) fun part hpart => ih part (by omega)
      · have hmarks := length_add_arrayMarks_le (c :: rest)
        rw [List.length_cons] at hmarks
        have hbase : P (arrayMarks (c :: rest)).1 (Ty.readBase (arrayMarks (c :: rest)).1) :=
          h.readBase (((prefix_arrayMarks _).isInfix.trans htrimmed).trans hcs) fun part hpart =>
            ih part (by omega)
        rw [readMember_of_trim htrim hc]
        split
        · exact h.absent cs
        · split
          · exact h.absent cs
          · next hdefined => exact h.arrayOf (by omega) hdefined hbase
termination_by cs.length

theorem readPart (cs : Text) (hcs : cs <:+: text) : P cs (Ty.read cs) := by
  rw [read_eq]
  refine h.ofAlternatives fun t ht => ?_
  obtain ⟨part, hpart, rfl⟩ := List.mem_map.1 ht
  have hpiece := (infix_of_mem_splitTop hpart).trans (infix_trim cs)
  have hlen := hpiece.length_le
  refine h.widen hpiece (h.readMember part (hpiece.trans hcs) fun shorter _ hshorter => ?_)
  exact readPart shorter hshorter
termination_by cs.length

/-- **What every step of the reader keeps holds of every type that is read.** -/
theorem read : P text (Ty.read text) := h.readPart text (List.infix_refl text)

end KeptByReading

end Ty

end HintCheck
