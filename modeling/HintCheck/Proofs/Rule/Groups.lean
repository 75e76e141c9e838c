/-
**Groups of rules.**

The name of a rule is a path of segments between slashes, and the rule belongs to every group that
the first segments of its name make.  A switch may be set for the rule and for each of its groups.
This module shows which one counts: the one with the longest name, and without any the rule is on.
So setting a switch makes a difference to a rule only where it stands for the rule or for one of
its groups, and no switch with a longer name does.

Main definitions:

* `HintCheck.RuleName.depth`, `HintCheck.RuleName.group` — the number of segments of a name, and
  the group that the first ones make;
* `HintCheck.Settings.Decides` — a name whose switch, when it has one, counts for a rule;
* `HintCheck.Settings.withSwitch` — settings with one switch set anew.

Main results:

* `HintCheck.RuleName.group_depth`, `HintCheck.RuleName.beginnings_eq` — a rule is the smallest of
  its groups, and the names that are looked up for it are its groups;
* `HintCheck.Settings.enabled_of_decides`, `HintCheck.Settings.enabled_of_none` — what a rule is
  by its switches;
* `HintCheck.Settings.Decides.withSwitch`, `HintCheck.Settings.enabled_withSwitch_of_not_decides` —
  what a switch changes;
* `HintCheck.Settings.enabled_by_longest_switch` — **the switch with the longest name counts, and
  to set any other one changes nothing.**
-/

import HintCheck.Proofs.ClassIndex.Ancestors
import HintCheck.Proofs.Text.Segments
import HintCheck.Settings

set_option relaxedAutoImplicit false
set_option autoImplicit false

namespace HintCheck

open Text

/-! ### The groups of a name -/

namespace RuleName

/-- The segments of a name, between slashes. -/
def segments (name : Text) : List Text := splitOn '/' name

/-- The number of segments of a name. -/
def depth (name : Text) : Nat := (segments name).length

/-- The group that the first `j` segments of a name make. -/
def group (name : Text) (j : Nat) : Text := path '/' ((segments name).take j)

variable {name : Text}

/-- A rule is the smallest of its groups. -/
theorem group_depth (name : Text) : group name (depth name) = name := by
  rw [group, depth, List.take_length]
  exact path_splitOn name

/-- Groups of different depth are different. -/
theorem group_inj {i j : Nat} (hi : 0 < i) (hj : 0 < j) (hi' : i ≤ depth name)
    (hj' : j ≤ depth name) (h : group name i = group name j) : i = j := by
  have htake : (segments name).take i = (segments name).take j := by
    rw [segments, ← splitOn_path_take hi, ← splitOn_path_take hj]
    exact congrArg (splitOn '/') h
  have hlength := congrArg List.length htake
  rw [List.length_take_of_le hi', List.length_take_of_le hj'] at hlength
  exact hlength

/-! ### Looking up the groups -/

theorem take_segments_ne_nil (name : Text) (j : Nat) : (segments name).take (j + 1) ≠ [] := by
  rw [Ne, List.take_eq_nil_iff]
  simpa [segments] using splitOn_ne_nil '/' name

/-- A slash in front of a name ends an empty segment. -/
theorem segments_slash (name : Text) : segments ('/' :: name) = [] :: segments name := rfl

theorem group_slash (name : Text) (j : Nat) :
    group ('/' :: name) (j + 2) = '/' :: group name (j + 1) := by
  rw [group, segments_slash, List.take_succ_cons, path_cons (take_segments_ne_nil name j)]
  rfl

theorem segments_cons {c : Char} (hc : c ≠ '/') (name : Text) :
    segments (c :: name) = pushFirst c (segments name) := by
  rw [segments, splitOn, if_neg hc]
  rfl

theorem depth_cons {c : Char} (hc : c ≠ '/') (name : Text) : depth (c :: name) = depth name := by
  rw [depth, segments_cons hc, depth]
  cases hs : segments name with
  | nil => exact absurd hs (splitOn_ne_nil '/' name)
  | cons s rest => rfl

theorem group_cons {c : Char} (hc : c ≠ '/') (name : Text) (j : Nat) :
    group (c :: name) (j + 1) = c :: group name (j + 1) := by
  have htake : (pushFirst c (segments name)).take (j + 1) =
      pushFirst c ((segments name).take (j + 1)) := by
    cases hs : segments name with
    | nil => exact absurd hs (splitOn_ne_nil '/' name)
    | cons s rest => rfl
  rw [group, segments_cons hc, htake, path_pushFirst (take_segments_ne_nil name j), group]

theorem beginningsFrom_eq (done name : Text) :
    Settings.beginningsFrom done name =
      (List.range (depth name)).map fun j => done ++ group name (j + 1) := by
  induction name generalizing done with
  | nil => simp [Settings.beginningsFrom, depth, group, segments, splitOn]
  | cons c name ih =>
      unfold Settings.beginningsFrom
      by_cases hc : c = '/'
      · subst hc
        have hdepth : depth ('/' :: name) = depth name + 1 := rfl
        rw [if_pos rfl, ih, hdepth, List.range_succ_eq_map, List.map_cons, List.map_map]
        have hfirst : group ('/' :: name) 1 = [] := path_singleton []
        simp [hfirst, group_slash]
      · rw [if_neg hc, ih, depth_cons hc]
        simp [group_cons hc]

/-- The names that are looked up for a rule are its groups, the rule itself among them. -/
theorem beginnings_eq (name : Text) :
    Settings.beginnings name = (List.range (depth name)).map fun j => group name (j + 1) := by
  rw [Settings.beginnings, beginningsFrom_eq]
  simp

/-- What is found last in a range is found where nothing is found behind. -/
theorem findSome?_reverse_range {α : Type} {f : Nat → Option α} {n j : Nat} {a : α} (hj : j < n)
    (hfound : f j = some a) (hbehind : ∀ i, j < i → i < n → f i = none) :
    (List.range n).reverse.findSome? f = some a := by
  induction n with
  | zero => omega
  | succ n ih =>
      rw [List.range_succ, List.reverse_append, List.reverse_singleton, List.singleton_append,
        List.findSome?_cons]
      rcases Nat.lt_or_ge j n with hlt | hge
      · rw [hbehind n hlt (by omega)]
        exact ih hlt fun i hi hi' => hbehind i hi (by omega)
      · have hjn : j = n := by omega
        rw [← hjn, hfound]

end RuleName

/-! ### Switches -/

namespace Settings

open RuleName

/-- Settings with one switch set anew. -/
def withSwitch (s : Settings) (p : Text) (on : Bool) : Settings :=
  { s with switches := setSwitch s.switches p on }

/-- A group of a rule, or the rule, such that no switch has a longer name among them.  When it has
a switch, this one counts. -/
def Decides (s : Settings) (name p : Text) : Prop :=
  ∃ j, 0 < j ∧ j ≤ depth name ∧ p = group name j ∧
    ∀ i, j < i → i ≤ depth name → s.switches.lookup (group name i) = none

variable {s : Settings} {name p : Text} {on : Bool}

/-- What is looked up after a switch is set. -/
theorem lookup_withSwitch (s : Settings) (p : Text) (on : Bool) (q : Text) :
    (s.withSwitch p on).switches.lookup q = if q = p then some on else s.switches.lookup q := by
  rw [withSwitch, setSwitch, List.lookup_append]
  by_cases h : q = p
  · have hnone : (s.switches.filter (·.1 != p)).lookup q = none := by
      refine List.lookup_eq_none_iff.2 fun kv hkv => ?_
      have hne : kv.1 ≠ p := by simpa using (List.mem_filter.1 hkv).2
      simpa [h] using Ne.symm hne
    rw [hnone, if_pos h, h]
    simp
  · have hkey : (q == p) = false := by simpa using h
    rw [ClassIndex.lookup_filter_of_ne h, if_neg h, List.lookup_cons, hkey]
    simp

/-- A rule is looked up by its groups, longest name first. -/
theorem enabled_eq (s : Settings) (name : Text) :
    s.enabled name =
      ((List.range (depth name)).reverse.findSome? fun j =>
        s.switches.lookup (group name (j + 1))).getD true := by
  rw [enabled, beginnings_eq, ← List.map_reverse, List.findSome?_map]
  rfl

/-- The switch with the longest name counts. -/
theorem enabled_of_decides (h : s.Decides name p) (hp : s.switches.lookup p = some on) :
    s.enabled name = on := by
  obtain ⟨j, hpos, hj, rfl, hlonger⟩ := h
  rw [enabled_eq, findSome?_reverse_range (j := j - 1) (a := on) (by omega)]
  · rfl
  · rw [show j - 1 + 1 = j by omega, hp]
  · exact fun i hi hi' => hlonger (i + 1) (by omega) (by omega)

/-- Without any switch for it and its groups a rule is on. -/
theorem enabled_of_none
    (h : ∀ j, 0 < j → j ≤ depth name → s.switches.lookup (group name j) = none) :
    s.enabled name = true := by
  have hnone : (List.range (depth name)).reverse.findSome? (fun j =>
      s.switches.lookup (group name (j + 1))) = none := by
    refine List.findSome?_eq_none_iff.2 fun j hj => h (j + 1) (by omega) ?_
    simp only [List.mem_reverse, List.mem_range] at hj
    omega
  rw [enabled_eq, hnone]
  rfl

/-- Some switch counts for a rule, unless there is none for it and its groups. -/
theorem exists_decides (s : Settings) (name : Text) :
    (∀ j, 0 < j → j ≤ depth name → s.switches.lookup (group name j) = none) ∨
      ∃ j on, 0 < j ∧ j ≤ depth name ∧ s.switches.lookup (group name j) = some on ∧
        ∀ i, j < i → i ≤ depth name → s.switches.lookup (group name i) = none := by
  -- the groups from some depth on are looked at, and the depth goes down
  suffices h : ∀ k, k ≤ depth name →
      (∀ i, k < i → i ≤ depth name → s.switches.lookup (group name i) = none) →
      (∀ j, 0 < j → j ≤ depth name → s.switches.lookup (group name j) = none) ∨
        ∃ j on, 0 < j ∧ j ≤ depth name ∧ s.switches.lookup (group name j) = some on ∧
          ∀ i, j < i → i ≤ depth name → s.switches.lookup (group name i) = none from
    h (depth name) (by omega) fun i hi hi' => absurd hi' (by omega)
  intro k
  induction k with
  | zero => exact fun _ hnone => Or.inl hnone
  | succ k ih =>
      intro hk hnone
      cases hfound : s.switches.lookup (group name (k + 1)) with
      | some on => exact Or.inr ⟨k + 1, on, by omega, hk, hfound, hnone⟩
      | none =>
          refine ih (by omega) fun i hi hi' => ?_
          rcases Nat.lt_or_ge (k + 1) i with hlt | hge
          · exact hnone i hlt hi'
          · rwa [show i = k + 1 by omega]

/-! ### Setting a switch -/

/-- A name that decides goes on to do so when its switch is set. -/
theorem Decides.withSwitch (h : s.Decides name p) (on : Bool) :
    (s.withSwitch p on).Decides name p := by
  obtain ⟨j, hpos, hj, rfl, hlonger⟩ := h
  refine ⟨j, hpos, hj, rfl, fun i hi hi' => ?_⟩
  have hne : group name i ≠ group name j := fun heq =>
    absurd (group_inj (by omega) hpos hi' hj heq) (by omega)
  rw [lookup_withSwitch, if_neg hne]
  exact hlonger i hi hi'

/-- To set the switch of a name that does not decide changes nothing. -/
theorem enabled_withSwitch_of_not_decides (h : ¬s.Decides name p) (on : Bool) :
    (s.withSwitch p on).enabled name = s.enabled name := by
  -- where no longer name has a switch, the name is not that of a group
  have hkept : ∀ j, 0 < j → j ≤ depth name →
      (∀ i, j < i → i ≤ depth name → s.switches.lookup (group name i) = none) →
      (s.withSwitch p on).switches.lookup (group name j) = s.switches.lookup (group name j) := by
    intro j hpos hj hlonger
    have hne : group name j ≠ p := fun heq => h ⟨j, hpos, hj, heq.symm, hlonger⟩
    rw [lookup_withSwitch, if_neg hne]
  rcases exists_decides s name with hnone | ⟨j, old, hpos, hj, hfound, hlonger⟩
  · rw [enabled_of_none hnone, enabled_of_none fun j hpos hj => ?_]
    rw [hkept j hpos hj fun i hi hi' => hnone i (by omega) hi', hnone j hpos hj]
  · have hold : s.Decides name (group name j) := ⟨j, hpos, hj, rfl, hlonger⟩
    have hnew : (s.withSwitch p on).Decides name (group name j) := by
      refine ⟨j, hpos, hj, rfl, fun i hi hi' => ?_⟩
      rw [hkept i (by omega) hi' fun k hk hk' => hlonger k (by omega) hk', hlonger i hi hi']
    rw [enabled_of_decides hold hfound,
      enabled_of_decides hnew ((hkept j hpos hj hlonger).trans hfound)]

/-- **The switch with the longest name counts.**  A rule is what the switch says that has the
longest name among those for the rule and its groups, and on without any.  To set a switch makes
the rule what it says when no other one has a longer name among them, and changes nothing
otherwise. -/
theorem enabled_by_longest_switch (s : Settings) (name : Text) :
    (∀ j on, 0 < j → j ≤ depth name → s.switches.lookup (group name j) = some on →
      (∀ i, j < i → i ≤ depth name → s.switches.lookup (group name i) = none) →
      s.enabled name = on) ∧
    ((∀ j, 0 < j → j ≤ depth name → s.switches.lookup (group name j) = none) →
      s.enabled name = true) ∧
    ∀ p on,
      (s.Decides name p → (s.withSwitch p on).enabled name = on) ∧
      (¬s.Decides name p → (s.withSwitch p on).enabled name = s.enabled name) := by
  refine ⟨fun j on hpos hj hfound hlonger => ?_, enabled_of_none, fun p on => ⟨fun h => ?_, ?_⟩⟩
  · exact enabled_of_decides ⟨j, hpos, hj, rfl, hlonger⟩ hfound
  · refine enabled_of_decides (h.withSwitch on) ?_
    rw [lookup_withSwitch, if_pos rfl]
  · exact fun h => enabled_withSwitch_of_not_decides h on

/-- A switch for a group turns a rule of the group off, and a switch for another rule of the group
makes no difference to it. -/
theorem enabled_by_longest_switch_of_group :
    enabled { switches := [("type_sniff".toList, false)] } "type_sniff/method".toList = false ∧
    enabled (withSwitch { switches := [("type_sniff".toList, false)] }
      "type_sniff/property".toList true) "type_sniff/method".toList = false := by
  have hdepth : depth "type_sniff/method".toList = 2 := by decide
  have hmain := enabled_by_longest_switch { switches := [("type_sniff".toList, false)] }
    "type_sniff/method".toList
  have hoff : enabled { switches := [("type_sniff".toList, false)] } "type_sniff/method".toList =
      false := by
    refine hmain.1 1 false (by decide) (by omega) (by decide) fun i hi hi' => ?_
    rw [show i = 2 by omega]
    decide
  have hother : ¬Decides { switches := [("type_sniff".toList, false)] } "type_sniff/method".toList
      "type_sniff/property".toList := by
    rintro ⟨j, hpos, hj, heq, -⟩
    have hj : j = 1 ∨ j = 2 := by omega
    rcases hj with rfl | rfl <;> exact absurd heq (by decide)
  exact ⟨hoff, ((hmain.2.2 _ true).2 hother).trans hoff⟩

end Settings

end HintCheck
