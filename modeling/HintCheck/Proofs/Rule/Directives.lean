/-
**Silencing comments act only where they say.**

A comment that silences rules is for one line and the next, or for the whole file, and it may list
the rules it is for.  This module shows what a text silences, line by line, and that nothing else in
the text matters: neither the lines elsewhere, nor the names of rules that are not listed.

Main definitions:

* `HintCheck.Suppressions.OrdersFile`, `HintCheck.Suppressions.OrdersLine` — the two kinds of
  silencing comments, as they stand on a line;
* `HintCheck.Suppressions.AgreeAt` — two texts that agree wherever a comment can silence a line.

Main results:

* `HintCheck.Directive.patternCovers_iff` — a name covers the rules that begin with its segments;
* `HintCheck.Directive.covers_ofArguments_iff` — the rules that a list of names silences;
* `HintCheck.Suppressions.silences_ofSource_iff` — the lines of a text that silence a rule;
* `HintCheck.Suppressions.silences_where_said` — **silencing is local, follows the groups of rules,
  and spares what is not listed.**
-/

import Mathlib.Data.List.Infix
import HintCheck.Proofs.Rule.Groups
import HintCheck.Proofs.Text.Lines
import HintCheck.Rule.Report

set_option relaxedAutoImplicit false
set_option autoImplicit false

namespace HintCheck

open Text RuleName

/-! ### The first occurrence of a pattern -/

/-- A text that is cut at a pattern holds it between the two parts. -/
theorem Text.eq_of_cutAt? {pattern cs front tail : Text}
    (h : cutAt? pattern cs = some (front, tail)) : cs = front ++ pattern ++ tail := by
  induction cs generalizing front with
  | nil =>
      unfold cutAt? at h
      split at h
      · next hempty => simp_all
      · cases h
  | cons c cs ih =>
      unfold cutAt? at h
      split at h
      · next rest hrest =>
        cases h
        exact (List.isPrefixOf?_eq_some_iff_append_eq.1 hrest).symm
      · obtain ⟨⟨first, rest⟩, hcut, heq⟩ := Option.map_eq_some_iff.1 h
        cases heq
        rw [ih hcut]
        rfl

/-! ### The rules of a list -/

namespace Directive

variable {rule pattern tail : Text}

/-- A name covers the rules whose names begin with its segments. -/
theorem patternCovers_iff :
    patternCovers rule pattern = true ↔ segments pattern <+: segments rule := by
  rw [segments, segments, splitOn_prefix_iff, patternCovers, Bool.or_eq_true, beq_iff_eq,
    List.isPrefixOf_iff_prefix, eq_comm]

/-- The rules that a list of names silences. -/
theorem covers_ofArguments_iff :
    (ofArguments tail).covers rule = true ↔
      listed tail = [] ∨ "*".toList ∈ listed tail ∨ "all".toList ∈ listed tail ∨
        ∃ pattern ∈ listed tail, segments pattern <+: segments (lower rule) := by
  rw [ofArguments]
  split
  · next h =>
    simp only [Bool.or_eq_true, List.isEmpty_iff, List.contains_iff_mem] at h
    refine ⟨fun _ => ?_, fun _ => covers_everything rule⟩
    rcases h with (h | h) | h
    · exact Or.inl h
    · exact Or.inr (Or.inl h)
    · exact Or.inr (Or.inr (Or.inl h))
  · next h =>
    simp only [Bool.or_eq_true, List.isEmpty_iff, List.contains_iff_mem, not_or] at h
    obtain ⟨⟨hlisted, hstar⟩, hall⟩ := h
    simp only [covers, List.any_eq_true, patternCovers_iff, hlisted, hstar, hall, false_or]

/-- What silences a rule silences the rules of the group that has its name. -/
theorem covers_append {d : Directive} (h : d.covers rule = true) (sub : Text) :
    d.covers (rule ++ '/' :: sub) = true := by
  cases d with
  | everything => rfl
  | only patterns =>
      have hlower : lower (rule ++ '/' :: sub) = lower rule ++ '/' :: lower sub := by
        simp [lower]
      simp only [covers, List.any_eq_true, patternCovers_iff] at h ⊢
      obtain ⟨pattern, hmem, hprefix⟩ := h
      refine ⟨pattern, hmem, hprefix.trans ?_⟩
      rw [hlower, segments, segments, splitOn_append_cons]
      exact List.prefix_append _ _

end Directive

/-! ### The lines of a text -/

namespace Suppressions

open Directive Report

variable {line tail rule : Text} {m n : Nat}

/-- A line of a text; lines are numbered from one. -/
def line? (source : Text) (n : Nat) : Option Text := lineAt? (Text.lines source) n

/-- A line with a directive for the file, and the text behind it. -/
def OrdersFile (line tail : Text) : Prop :=
  ∃ front, cutAt? "type-sniff-ignore-file".toList line = some (front, tail)

/-- A line with a directive for lines, and the text behind it.  A directive for the file on the
same line takes its place. -/
def OrdersLine (line tail : Text) : Prop :=
  cutAt? "type-sniff-ignore-file".toList line = .none ∧
    ∃ front, cutAt? "type-sniff-ignore".toList line = some (front, tail)

/-- What a line silences. -/
theorem silences_ofLine_iff :
    (ofLine line m).silences rule n = true ↔
      ∃ tail, (OrdersFile line tail ∨ OrdersLine line tail ∧ (n = m ∨ n = m + 1)) ∧
        (ofArguments tail).covers rule = true := by
  unfold ofLine OrdersFile OrdersLine
  cases cutAt? "type-sniff-ignore-file".toList line with
  | some cut =>
      obtain ⟨front, tail⟩ := cut
      simp [silences]
  | none =>
      cases cutAt? "type-sniff-ignore".toList line with
      | some cut =>
          obtain ⟨front, tail⟩ := cut
          simp [silences, and_assoc]
      | none => simp

theorem silences_append (a b : Suppressions) (rule : Text) (n : Nat) :
    (a.append b).silences rule n = (a.silences rule n || b.silences rule n) := by
  simp only [silences, append, List.any_append]
  cases a.file.any (·.covers rule) <;> cases b.file.any (·.covers rule) <;> simp

theorem silences_ofLines_iff {k : Nat} {ls : List Text} :
    (ofLines k ls).silences rule n = true ↔
      ∃ i line, ls[i]? = some line ∧ (ofLine line (k + i)).silences rule n = true := by
  induction ls generalizing k with
  | nil => simp [ofLines]
  | cons l ls ih =>
      rw [ofLines, silences_append, Bool.or_eq_true, ih]
      constructor
      · rintro (h | ⟨i, line, hline, h⟩)
        · exact ⟨0, l, rfl, h⟩
        · exact ⟨i + 1, line, hline, by rwa [show k + (i + 1) = k + 1 + i by omega]⟩
      · rintro ⟨i, line, hline, h⟩
        cases i with
        | zero =>
            cases hline
            exact Or.inl h
        | succ i => exact Or.inr ⟨i, line, hline, by rwa [show k + 1 + i = k + (i + 1) by omega]⟩

/-- A text silences a rule on a line where one of its lines does. -/
theorem silences_ofSource_iff {source : Text} :
    (ofSource source).silences rule n = true ↔
      ∃ m line, line? source m = some line ∧ (ofLine line m).silences rule n = true := by
  rw [ofSource, silences_ofLines_iff]
  constructor
  · rintro ⟨i, line, hline, h⟩
    exact ⟨i + 1, line, hline, by rwa [Nat.add_comm]⟩
  · rintro ⟨m, line, hline, h⟩
    cases m with
    | zero => cases hline
    | succ i => exact ⟨i, line, hline, by rwa [Nat.add_comm]⟩

/-! ### Two texts -/

/-- Two texts agree on a line, on the one in front of it and on every line that holds a directive
for the file in one of them. -/
structure AgreeAt (a b : Text) (n : Nat) : Prop where
  here : line? a n = line? b n
  before : line? a (n - 1) = line? b (n - 1)
  file : ∀ m line, line? a m = some line ∨ line? b m = some line →
    "type-sniff-ignore-file".toList <:+: line → line? a m = line? b m

variable {a b : Text}

theorem AgreeAt.symm (h : AgreeAt a b n) : AgreeAt b a n where
  here := h.here.symm
  before := h.before.symm
  file m line hline hfile := (h.file m line hline.symm hfile).symm

theorem OrdersFile.infix (h : OrdersFile line tail) :
    "type-sniff-ignore-file".toList <:+: line := by
  obtain ⟨front, hcut⟩ := h
  exact ⟨front, tail, (eq_of_cutAt? hcut).symm⟩

/-- Where texts agree, a line that silences a rule in one of them silences it in the other. -/
theorem AgreeAt.silences (h : AgreeAt a b n) (ha : (ofSource a).silences rule n = true) :
    (ofSource b).silences rule n = true := by
  obtain ⟨m, line, hline, hsilences⟩ := silences_ofSource_iff.1 ha
  refine silences_ofSource_iff.2 ⟨m, line, ?_, hsilences⟩
  obtain ⟨tail, hfile | ⟨-, rfl | rfl⟩, -⟩ := silences_ofLine_iff.1 hsilences
  · rw [← h.file m line (Or.inl hline) hfile.infix, hline]
  · rw [← h.here, hline]
  · exact h.before.symm.trans hline

/-! ### What a directive spares -/

/-- A line has one directive at most. -/
theorem tail_unique {tail' : Text} (h : OrdersFile line tail ∨ OrdersLine line tail)
    (h' : OrdersFile line tail' ∨ OrdersLine line tail') : tail = tail' := by
  unfold OrdersFile OrdersLine at h h'
  rcases h with ⟨front, hcut⟩ | ⟨hno, front, hcut⟩ <;>
    rcases h' with ⟨front', hcut'⟩ | ⟨hno', front', hcut'⟩ <;> simp_all

/-- A directive with at least one name, but without a word for all rules, spares every rule that
neither has a listed name nor belongs to a group that has one. -/
theorem silences_ofLine_of_spared (h : OrdersFile line tail ∨ OrdersLine line tail)
    (hlisted : listed tail ≠ []) (hstar : "*".toList ∉ listed tail)
    (hall : "all".toList ∉ listed tail)
    (hspared : ∀ pattern ∈ listed tail, ¬segments pattern <+: segments (lower rule)) (m n : Nat) :
    (ofLine line m).silences rule n = false := by
  rw [Bool.eq_false_iff, Ne, silences_ofLine_iff]
  rintro ⟨tail', hscope, hcovers⟩
  have hline : OrdersFile line tail' ∨ OrdersLine line tail' := hscope.imp_right And.left
  rw [← tail_unique h hline, covers_ofArguments_iff] at hcovers
  rcases hcovers with h | h | h | ⟨pattern, hmem, hprefix⟩
  · exact hlisted h
  · exact hstar h
  · exact hall h
  · exact hspared pattern hmem hprefix

/-- **Silencing comments act only where they say.**  Whether a rule is silenced on a line depends
on this line, the one in front of it and the lines with directives for the file; what silences a
rule silences the rules of the group that has its name; and a directive with at least one name, but
without a word for all rules, spares every rule that neither has a listed name nor belongs to a
group that has one. -/
theorem silences_where_said :
    (∀ (a b : Text) (rule : Text) (n : Nat), AgreeAt a b n →
      (ofSource a).silences rule n = (ofSource b).silences rule n) ∧
    (∀ (source rule sub : Text) (n : Nat), (ofSource source).silences rule n = true →
      (ofSource source).silences (rule ++ '/' :: sub) n = true) ∧
    ∀ line tail rule : Text, OrdersFile line tail ∨ OrdersLine line tail →
      listed tail ≠ [] → "*".toList ∉ listed tail → "all".toList ∉ listed tail →
      (∀ pattern ∈ listed tail, ¬segments pattern <+: segments (lower rule)) →
      ∀ m n, (ofLine line m).silences rule n = false := by
  refine ⟨fun a b rule n h => ?_, fun source rule sub n h => ?_, ?_⟩
  · exact Bool.eq_iff_iff.2 ⟨h.silences, h.symm.silences⟩
  · obtain ⟨m, line, hline, hsilences⟩ := silences_ofSource_iff.1 h
    obtain ⟨tail, hscope, hcovers⟩ := silences_ofLine_iff.1 hsilences
    exact silences_ofSource_iff.2 ⟨m, line, hline,
      silences_ofLine_iff.2 ⟨tail, hscope, covers_append hcovers sub⟩⟩
  · exact fun line tail rule h hlisted hstar hall hspared m n =>
      silences_ofLine_of_spared h hlisted hstar hall hspared m n

/-- A directive for the file, one for lines, and a line without any. -/
def directiveLines : List Text :=
  ["// type-sniff-ignore-file: type_sniff/constant".toList,
    "// type-sniff-ignore: type_sniff/method".toList, "class A".toList]

/-- A text of these lines and one more. -/
def twoDirectives (last : Text) : Text := join "\n" (directiveLines ++ [last])

theorem line?_twoDirectives (last : Text) (hne : last ≠ []) (hnew : '\n' ∉ last) (m : Nat) :
    line? (twoDirectives last) m = lineAt? (directiveLines ++ [last]) m := by
  have hnewline : ∀ l ∈ directiveLines, '\n' ∉ l := by decide
  have hreturn : ∀ l ∈ directiveLines, l.getLast? ≠ some '\r' := by decide
  rw [line?, twoDirectives, lines_join (fun l hl => ⟨hnewline l hl, hreturn l hl⟩) hne hnew]

theorem agreeAt_twoDirectives :
    AgreeAt (twoDirectives "class B".toList) (twoDirectives "// type-sniff-ignore".toList) 3 := by
  have ha := line?_twoDirectives "class B".toList (by decide) (by decide)
  have hb := line?_twoDirectives "// type-sniff-ignore".toList (by decide) (by decide)
  refine ⟨by rw [ha, hb]; rfl, by rw [ha, hb]; rfl, fun m line hline hfile => ?_⟩
  rw [ha, hb] at hline ⊢
  rcases m with _ | _ | _ | _ | _ | m
  · rfl
  · rfl
  · rfl
  · rfl
  · -- neither of the last lines holds a directive for the file
    have hlast : line = "class B".toList ∨ line = "// type-sniff-ignore".toList :=
      hline.imp (fun h => (Option.some.inj h).symm) fun h => (Option.some.inj h).symm
    rcases hlast with rfl | rfl <;> exact absurd hfile (by decide)
  · rfl

/-- The last line makes no difference to the line in front of it; what is silenced there is
silenced for the rules of the group too, and another rule is spared. -/
theorem silences_where_said_of_twoDirectives :
    (ofSource (twoDirectives "class B".toList)).silences "type_sniff/method".toList 3 =
      (ofSource (twoDirectives "// type-sniff-ignore".toList)).silences
        "type_sniff/method".toList 3 ∧
    (ofSource (twoDirectives "class B".toList)).silences "type_sniff/method/x".toList 3 = true ∧
    (ofLine "// type-sniff-ignore: type_sniff/method".toList 2).silences
      "type_sniff/property".toList 3 = false := by
  have hlisted : listed ": type_sniff/method".toList = ["type_sniff/method".toList] := by decide
  refine ⟨silences_where_said.1 _ _ _ 3 agreeAt_twoDirectives,
    silences_where_said.2.1 _ "type_sniff/method".toList "x".toList 3 (by decide +kernel),
    silences_where_said.2.2 _ ": type_sniff/method".toList _ ?_ ?_ ?_ ?_ ?_ 2 3⟩
  · exact Or.inr ⟨by decide, "// ".toList, by decide⟩
  all_goals
    rw [hlisted]
    decide

end Suppressions

end HintCheck
