/-
**Tags over several lines.**

A tag may be broken at any blank: the lines that continue it can be put on its first line, with a
space in front of the words of each, and the comment has the same tag.  The name is told on the
first line alone, and the type, the variable and the words are told apart only when all lines have
been put together.  The other tags stay as they are; those behind the lines that are gone move up.

Main definitions:

* `HintCheck.DocBlock.unwrapped` — a tag line with the words of the lines behind it;
* `HintCheck.DocTag.movedDown` — a tag some lines further down.

Main results:

* `HintCheck.DocBlock.tagOf_unwrapped` — a tag on one line is the tag on several lines;
* `HintCheck.DocBlock.tagsFrom_append_tag` — a tag line parts the lines in front of it from those
  behind it;
* `HintCheck.DocBlock.read_unwrapped` — **wrapping a tag over several lines does not change it.**
-/

import HintCheck.Proofs.Doc.TagLines

set_option relaxedAutoImplicit false
set_option autoImplicit false

namespace HintCheck

namespace DocTag

/-- A tag some lines further down. -/
def movedDown (k : Nat) (t : DocTag) : DocTag := t.atLine (t.line + k)

theorem movedDown_ofContent (k n : Nat) (name content : Text) :
    (ofContent n name content).movedDown k = ofContent (n + k) name content := by
  rw [movedDown, line_ofContent, atLine_ofContent]

end DocTag

namespace DocBlock

open Text

/-- A tag line with the words of other lines behind it, each after one space. -/
def unwrapped (line : Text) (more : List Text) : Text := line ++ (more.map trim).flatMap behind

theorem trimEnd_cleanLine (line : Text) : trimEnd (cleanLine line) = cleanLine line := by
  unfold cleanLine
  dsimp only
  split <;> exact trimEnd_trimEnd _

variable {l : Text} {more : List Text}

/-! ### The tag of a line -/

/-- What stands behind the sign of a tag. -/
theorem tagBody_unwrapped (hsign : (trimStart l).head? = some '@') (more : List Text) :
    tagBody (unwrapped l more) = tagBody l ++ behind (spaced (more.map trim)) := by
  obtain ⟨rest, hrest⟩ := List.head?_eq_some_iff.1 hsign
  have hstart := trimStart_append (s := l) (by simp [hrest]) (behind (spaced (more.map trim)))
  simp [tagBody, unwrapped, flatMap_behind, hstart, hrest]

theorem tagName_unwrapped (hsign : (trimStart l).head? = some '@') (more : List Text) :
    tagName (unwrapped l more) = tagName l := by
  rw [tagName, tagBody_unwrapped hsign, (cut_tagName _ _).1, tagName]

/-- The content of a tag line is what its own words and those of the other lines make. -/
theorem ownContent_unwrapped (hsign : (trimStart l).head? = some '@') (htrim : trimEnd l = l)
    (more : List Text) : ownContent (unwrapped l more) = more.foldl extend (ownContent l) := by
  obtain ⟨rest, hrest⟩ := List.head?_eq_some_iff.1 hsign
  have hbody : tagBody l = rest := by simp [tagBody, hrest]
  have hsuffix : rest.dropWhile isTagNameChar <:+ l := by
    refine (List.dropWhile_suffix _).trans ((List.suffix_cons '@' rest).trans ?_)
    rw [← hrest]
    exact List.dropWhile_suffix _
  have hwords : ∀ q ∈ more.map trim, trim q = q :=
    List.forall_mem_map.2 fun q _ => trim_trim q
  rw [ownContent, tagBody_unwrapped hsign, (cut_tagName _ _).2, hbody,
    trim_append_behind_spaced (trimEnd_of_suffix hsuffix htrim) hwords, foldl_extend, ownContent,
    hbody]

/-- **A tag on one line is the tag on several lines.** -/
theorem tagOf_unwrapped (hsign : (trimStart l).head? = some '@') (htrim : trimEnd l = l) (n : Nat)
    (more after : List Text) : tagOf n (unwrapped l more) after = tagOf n l (more ++ after) := by
  rw [tagOf, tagOf, tagName_unwrapped hsign, ownContent_unwrapped hsign htrim, List.foldl_append]

theorem beginsTag_of_sign (hsign : (trimStart l).head? = some '@') : beginsTag l = true := by
  obtain ⟨rest, hrest⟩ := List.head?_eq_some_iff.1 hsign
  simp [beginsTag, hrest]

theorem sign_unwrapped (hsign : (trimStart l).head? = some '@') (more : List Text) :
    (trimStart (unwrapped l more)).head? = some '@' := by
  have hne : trimStart l ≠ [] := fun hnil => by simp [hnil] at hsign
  rw [unwrapped, trimStart_append hne, List.head?_append, hsign]
  rfl

/-- A tag has its name on its first line. -/
theorem isNameless_unwrapped (hsign : (trimStart l).head? = some '@') (more : List Text) :
    isNameless (unwrapped l more) = isNameless l := by
  have h := takeWhile_tagBody_eq_nil_iff (beginsTag_of_sign hsign)
  have h' := takeWhile_tagBody_eq_nil_iff (beginsTag_of_sign (sign_unwrapped hsign more))
  rw [tagBody_unwrapped hsign, (cut_tagName _ _).1] at h'
  exact Bool.eq_iff_iff.2 (h'.symm.trans h)

/-! ### The tags of other lines -/

theorem takeWhile_append_tag (h : beginsTag l = true) (before after : List Text) :
    (before ++ l :: after).takeWhile (!beginsTag ·) = before.takeWhile (!beginsTag ·) := by
  induction before with
  | nil => simp [h]
  | cons k ls ih => cases hk : beginsTag k <;> simp [hk, ih]

/-- A tag line parts the lines in front of it from those behind it. -/
theorem tagsFrom_append_tag (h : beginsTag l = true) (n : Nat) (before after : List Text) :
    tagsFrom n (before ++ l :: after) =
      tagsFrom n before ++ tagOf (n + before.length) l (after.takeWhile (!beginsTag ·)) ::
        tagsFrom (n + before.length + 1) after := by
  induction before generalizing n with
  | nil => exact tagsFrom_cons_tag h n after
  | cons k ls ih =>
      have hplace : n + (k :: ls).length = n + 1 + ls.length := by rw [List.length_cons]; omega
      rw [List.cons_append, hplace]
      cases hk : beginsTag k with
      | true =>
          rw [tagsFrom_cons_tag hk, tagsFrom_cons_tag hk, ih, takeWhile_append_tag h]
          rfl
      | false => rw [tagsFrom_cons_other hk, tagsFrom_cons_other hk, ih]

theorem tagsFrom_append_other (h : ∀ k ∈ more, beginsTag k = false) (n : Nat)
    (after : List Text) : tagsFrom n (more ++ after) = tagsFrom (n + more.length) after := by
  induction more generalizing n with
  | nil => rfl
  | cons k ls ih =>
      have hplace : n + (k :: ls).length = n + 1 + ls.length := by rw [List.length_cons]; omega
      rw [List.cons_append, tagsFrom_cons_other (h k List.mem_cons_self),
        ih fun c hc => h c (List.mem_cons_of_mem _ hc), hplace]

/-- The tags of lines that stand further down. -/
theorem tagsFrom_add (ls : List Text) (n k : Nat) :
    tagsFrom (n + k) ls = (tagsFrom n ls).map (DocTag.movedDown k) := by
  induction ls generalizing n with
  | nil => rfl
  | cons l ls ih =>
      have hplace : n + k + 1 = n + 1 + k := by omega
      cases hl : beginsTag l with
      | true =>
          rw [tagsFrom_cons_tag hl, tagsFrom_cons_tag hl, List.map_cons, hplace, ih, tagOf, tagOf,
            DocTag.movedDown_ofContent]
      | false => rw [tagsFrom_cons_other hl, tagsFrom_cons_other hl, hplace, ih]

/-! ### The comment -/

/-- A comment in which no tag line lacks a name is read. -/
theorem read_of_named {raw : Text} (h : ∀ l ∈ lines raw, isNameless (cleanLine l) = false)
    (line : Nat) : read raw line = .ok (ofLines line (cleanLines raw)) := by
  have hnone : (cleanLines raw).findIdx? isNameless = none := by
    rw [List.findIdx?_eq_none_iff, cleanLines, List.forall_mem_map]
    exact h
  rw [read_eq, hnone]

/-- The comments of the lines of a tag, and of one line in their place: they differ only in the
numbers of the lines further down. -/
theorem ofLines_unwrapped (hsign : (trimStart l).head? = some '@') (htrim : trimEnd l = l)
    (hmore : ∀ k ∈ more, beginsTag k = false) (line : Nat) (before after : List Text) :
    (ofLines line (before ++ unwrapped l more :: after)).description =
        (ofLines line (before ++ l :: (more ++ after))).description ∧
      ∃ front tag back, front.length = before.countP beginsTag ∧
        back.length = after.countP beginsTag ∧ tag.line = line + before.length ∧
        (ofLines line (before ++ unwrapped l more :: after)).tags = front ++ tag :: back ∧
        (ofLines line (before ++ l :: (more ++ after))).tags =
          front ++ tag :: back.map (DocTag.movedDown more.length) := by
  have htag := beginsTag_of_sign hsign
  have htag' := beginsTag_of_sign (sign_unwrapped hsign more)
  have hcontinues : (more ++ after).takeWhile (!beginsTag ·) =
      more ++ after.takeWhile (!beginsTag ·) :=
    List.takeWhile_append_of_pos fun k hk => by simp [hmore k hk]
  refine ⟨?_, tagsFrom line before,
    tagOf (line + before.length) (unwrapped l more) (after.takeWhile (!beginsTag ·)),
    tagsFrom (line + before.length + 1) after, length_tagsFrom _ _, length_tagsFrom _ _,
    DocTag.line_ofContent _ _ _, tagsFrom_append_tag htag' line before after, ?_⟩
  · rw [ofLines, ofLines, takeWhile_append_tag htag, takeWhile_append_tag htag']
  · rw [ofLines, tagsFrom_append_tag htag, tagsFrom_append_other hmore, tagsFrom_add, hcontinues,
      tagOf_unwrapped hsign htrim]

/-- **Wrapping a tag over several lines does not change it.**  When a tag line and the lines `cs`
that continue it are put on one line, the comment stays the same, except that the tags behind them
move up. -/
theorem read_unwrapped {raw raw' : Text} (l l' : Text) (before cs after : List Text)
    (hraw : lines raw = before ++ l :: (cs ++ after)) (hraw' : lines raw' = before ++ l' :: after)
    (hsign : (trimStart (cleanLine l)).head? = some '@')
    (hname : isNameless (cleanLine l) = false)
    (hcs : ∀ c ∈ cs, beginsTag (cleanLine c) = false)
    (hl' : cleanLine l' = unwrapped (cleanLine l) (cs.map cleanLine))
    (hothers : ∀ k ∈ before ++ after, isNameless (cleanLine k) = false) (line : Nat) :
    ∃ b b', read raw line = .ok b ∧ read raw' line = .ok b' ∧ b'.description = b.description ∧
      ∃ front tag back, front.length = before.countP (beginsTag ∘ cleanLine) ∧
        back.length = after.countP (beginsTag ∘ cleanLine) ∧ tag.line = line + before.length ∧
        b'.tags = front ++ tag :: back ∧
        b.tags = front ++ tag :: back.map (DocTag.movedDown cs.length) := by
  rw [List.forall_mem_append] at hothers
  have hcontinues : ∀ c ∈ cs, isNameless (cleanLine c) = false :=
    fun c hc => isNameless_of_other (hcs c hc)
  have hname' : isNameless (cleanLine l') = false := by
    rw [hl', isNameless_unwrapped hsign, hname]
  have hread : read raw line = .ok (ofLines line (cleanLines raw)) := by
    refine read_of_named ?_ line
    rw [hraw, List.forall_mem_append, List.forall_mem_cons, List.forall_mem_append]
    exact ⟨hothers.1, hname, hcontinues, hothers.2⟩
  have hread' : read raw' line = .ok (ofLines line (cleanLines raw')) := by
    refine read_of_named ?_ line
    rw [hraw', List.forall_mem_append, List.forall_mem_cons]
    exact ⟨hothers.1, hname', hothers.2⟩
  have hmore : ∀ k ∈ cs.map cleanLine, beginsTag k = false := List.forall_mem_map.2 hcs
  have h := ofLines_unwrapped hsign (trimEnd_cleanLine l) hmore line (before.map cleanLine)
    (after.map cleanLine)
  refine ⟨_, _, hread, hread', ?_⟩
  simpa only [cleanLines, hraw, hraw', List.map_append, List.map_cons, hl', List.length_map,
    List.countP_map] using h

/-- A type is broken in its brackets, with a blank line there, and the words behind the variable are
broken, too. -/
theorem read_unwrapped_of_map :
    let raw := "/** @param Map<string,\n *\n *   int> $x the\n table\n * @return int */".toList
    let raw' := "/** @param Map<string, int> $x the table\n * @return int */".toList
    ∃ b b', read raw 3 = .ok b ∧ read raw' 3 = .ok b' ∧ b'.description = b.description ∧
      ∃ front tag back, front.length = 0 ∧ back.length = 1 ∧ tag.line = 3 ∧
        b'.tags = front ++ tag :: back ∧ b.tags = front ++ tag :: back.map (DocTag.movedDown 3) :=
  read_unwrapped "/** @param Map<string,".toList "/** @param Map<string, int> $x the table".toList
    [] ([" *", " *   int> $x the", " table"].map String.toList) [" * @return int */".toList]
    (by decide) (by decide) (by decide) (by decide +kernel) (by decide) (by decide)
    (by decide +kernel) 3

end DocBlock

end HintCheck
