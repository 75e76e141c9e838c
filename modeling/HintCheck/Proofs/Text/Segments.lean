/-
**Names in segments.**

Names of rules and names of classes are segments between separators.  This module relates a name to
the list of its segments: either one gives the other, and one name goes on from another, behind a
separator, exactly when its list of segments does; and so for a name that another one ends with.

Main definitions:

* `HintCheck.Text.path` — the name that segments make.

Main results:

* `HintCheck.Text.splitOn_path`, `HintCheck.Text.path_splitOn` — a name and its segments give one
  another;
* `HintCheck.Text.splitOn_append_cons` — a separator cuts a name in two;
* `HintCheck.Text.splitOn_prefix_iff`, `HintCheck.Text.splitOn_suffix_iff` — **the first segments
  of a name are what stands in front of a separator**, and the last ones what stands behind one.
-/

import HintCheck.Text.Basic

set_option relaxedAutoImplicit false
set_option autoImplicit false

namespace HintCheck

namespace Text

variable {separator : Char}

/-- The name that segments make. -/
def path (separator : Char) (segments : List Text) : Text := [separator].intercalate segments

@[simp] theorem path_singleton (s : Text) : path separator [s] = s := by
  simp [path, List.intercalate]

theorem path_cons {segments : List Text} (h : segments ≠ []) (s : Text) :
    path separator (s :: segments) = s ++ separator :: path separator segments := by
  cases segments with
  | nil => exact absurd rfl h
  | cons t segments => simp [path, List.intercalate]

/-- A character in front of a name belongs to its first segment. -/
theorem path_pushFirst {segments : List Text} (h : segments ≠ []) (c : Char) :
    path separator (pushFirst c segments) = c :: path separator segments := by
  cases segments with
  | nil => exact absurd rfl h
  | cons s segments => cases segments <;> simp [path, List.intercalate, pushFirst]

theorem path_splitOn (name : Text) : path separator (splitOn separator name) = name :=
  intercalate_splitOn separator name

/-! ### Cutting a name -/

/-- A separator cuts a name in two. -/
theorem splitOn_append_cons (a b : Text) :
    splitOn separator (a ++ separator :: b) = splitOn separator a ++ splitOn separator b := by
  induction a with
  | nil => simp [splitOn]
  | cons c a ih =>
      by_cases hc : c = separator
      · rw [List.cons_append, splitOn, if_pos hc, ih, splitOn, if_pos hc, List.cons_append]
      · rw [List.cons_append, splitOn, if_neg hc, ih, splitOn, if_neg hc]
        cases hs : splitOn separator a with
        | nil => exact absurd hs (splitOn_ne_nil separator a)
        | cons s segments => rfl

theorem splitOn_of_not_mem {a : Text} (h : separator ∉ a) : splitOn separator a = [a] := by
  induction a with
  | nil => rfl
  | cons c a ih =>
      rw [List.mem_cons, not_or] at h
      rw [splitOn, if_neg (Ne.symm h.1), ih h.2]
      rfl

/-- The segments of a name are the texts that it was made of. -/
theorem splitOn_path {segments : List Text} (hne : segments ≠ [])
    (h : ∀ s ∈ segments, separator ∉ s) :
    splitOn separator (path separator segments) = segments := by
  induction segments with
  | nil => exact absurd rfl hne
  | cons s segments ih =>
      have hs := splitOn_of_not_mem (h s List.mem_cons_self)
      cases segments with
      | nil => rw [path_singleton, hs]
      | cons t segments =>
          rw [path_cons (by simp), splitOn_append_cons, hs,
            ih (by simp) fun u hu => h u (List.mem_cons_of_mem _ hu)]
          rfl

theorem not_mem_of_mem_splitOn {name s : Text} (h : s ∈ splitOn separator name) :
    separator ∉ s := by
  induction name generalizing s with
  | nil =>
      rw [splitOn, List.mem_singleton] at h
      simp [h]
  | cons c name ih =>
      unfold splitOn at h
      split at h
      · rcases List.mem_cons.1 h with rfl | h
        · simp
        · exact ih h
      · next hc =>
        cases hs : splitOn separator name with
        | nil => exact absurd hs (splitOn_ne_nil separator name)
        | cons t segments =>
            rw [hs] at h ih
            rcases List.mem_cons.1 h with rfl | h
            · exact List.not_mem_cons_of_ne_of_not_mem (Ne.symm hc) (ih List.mem_cons_self)
            · exact ih (List.mem_cons_of_mem _ h)

/-! ### Names that go on from another one -/

theorem path_append {a b : List Text} (ha : a ≠ []) (hb : b ≠ []) :
    path separator (a ++ b) = path separator a ++ separator :: path separator b := by
  induction a with
  | nil => exact absurd rfl ha
  | cons s a ih =>
      cases a with
      | nil => rw [List.singleton_append, path_cons hb, path_singleton]
      | cons t a =>
          have hne : t :: a ≠ [] := List.cons_ne_nil t a
          rw [List.cons_append, path_cons (by simp), ih hne, path_cons hne, List.append_assoc]
          rfl

/-- **The first segments of a name** are the name itself, or what stands in front of a separator. -/
theorem splitOn_prefix_iff {a name : Text} :
    splitOn separator a <+: splitOn separator name ↔ a = name ∨ a ++ [separator] <+: name := by
  constructor
  · rintro ⟨rest, h⟩
    rw [← @path_splitOn separator name, ← h]
    cases rest with
    | nil => exact Or.inl (by rw [List.append_nil, path_splitOn])
    | cons t rest =>
        refine Or.inr ⟨path separator (t :: rest), ?_⟩
        rw [path_append (splitOn_ne_nil separator a) (by simp), path_splitOn]
        simp
  · rintro (rfl | ⟨rest, rfl⟩)
    · exact List.prefix_rfl
    · rw [List.append_assoc, List.singleton_append, splitOn_append_cons]
      exact List.prefix_append _ _

/-- **The last segments of a name** are the name itself, or what stands behind a separator. -/
theorem splitOn_suffix_iff {a name : Text} :
    splitOn separator a <:+ splitOn separator name ↔ a = name ∨ separator :: a <:+ name := by
  constructor
  · rintro ⟨front, h⟩
    rw [← @path_splitOn separator name, ← h]
    cases front with
    | nil => exact Or.inl (by rw [List.nil_append, path_splitOn])
    | cons t front =>
        refine Or.inr ⟨path separator (t :: front), ?_⟩
        rw [path_append (by simp) (splitOn_ne_nil separator a), path_splitOn]
  · rintro (rfl | ⟨front, rfl⟩)
    · exact List.suffix_rfl
    · rw [splitOn_append_cons]
      exact List.suffix_append _ _

/-- The first segments of a name make a name of these segments. -/
theorem splitOn_path_take {j : Nat} (hj : 0 < j) (name : Text) :
    splitOn separator (path separator ((splitOn separator name).take j)) =
      (splitOn separator name).take j := by
  refine splitOn_path ?_ fun s hs => not_mem_of_mem_splitOn (List.mem_of_mem_take hs)
  have hne := splitOn_ne_nil separator name
  rw [Ne, List.take_eq_nil_iff, not_or]
  exact ⟨by omega, hne⟩

end Text

end HintCheck
