/-
**Names of tags in settings.**

Settings name tags as they are written: perhaps with their signs, with blanks around them, with
capitals.  The names are kept in one form, each once.  This form is reached in one step unless a
blank stands behind the signs: the blank is kept, and no comment has a tag with such a name.

Main definitions:

* `HintCheck.SignApart` — a blank stands behind the signs of a name;
* `HintCheck.NamesTag` — a name that some comment gives to a tag.

Main results:

* `HintCheck.mem_normalizeTags`, `HintCheck.nodup_normalizeTags` — what is kept;
* `HintCheck.normalizeTags_eq_self_iff` — the lists that stay as they are;
* `HintCheck.trim_normalizeTag_iff` — only behind a sign a blank is kept;
* `HintCheck.normalizeTags_normal` — **a list of names reaches its normal form exactly when no sign
  stands apart.**
-/

import HintCheck.Settings
import HintCheck.Proofs.Doc.RoundTrip
import HintCheck.Proofs.Doc.Wrapped
import HintCheck.Proofs.Text.Lowercase

set_option relaxedAutoImplicit false
set_option autoImplicit false

namespace HintCheck

open Text

/-! ### Keeping names -/

section Kept

variable {a name : Text} {kept names : List Text}

theorem addTagName_sublist (kept : List Text) (name : Text) :
    (addTagName kept name).Sublist (kept ++ [name]) := by
  unfold addTagName
  split
  · exact List.sublist_append_left kept [name]
  · exact List.Sublist.refl _

theorem mem_addTagName : a ∈ addTagName kept name ↔ a ∈ kept ∨ a = name ∧ a ≠ [] := by
  unfold addTagName
  split
  · next h =>
    rw [Bool.or_eq_true, List.isEmpty_iff, List.contains_iff_mem] at h
    constructor
    · exact .inl
    · rintro (hkept | ⟨rfl, hne⟩)
      · exact hkept
      · exact h.resolve_left hne
  · next h =>
    rw [Bool.or_eq_true, List.isEmpty_iff, not_or] at h
    rw [List.mem_append, List.mem_singleton]
    exact or_congr_right ⟨fun heq => ⟨heq, heq ▸ h.1⟩, And.left⟩

theorem nodup_addTagName (h : kept.Nodup) : (addTagName kept name).Nodup := by
  unfold addTagName
  split
  · exact h
  · next hnew =>
    rw [Bool.or_eq_true, List.contains_iff_mem, not_or] at hnew
    rw [List.nodup_append]
    refine ⟨h, List.pairwise_singleton _ name, fun x hx y hy heq => hnew.2 ?_⟩
    rw [← List.mem_singleton.1 hy, ← heq]
    exact hx

/-- Names are kept in order, and none is added. -/
theorem foldl_addTagName_sublist (names kept : List Text) :
    (names.foldl addTagName kept).Sublist (kept ++ names) := by
  induction names generalizing kept with
  | nil => simp
  | cons name names ih =>
      have hname := (addTagName_sublist kept name).append_right names
      simpa using (ih (addTagName kept name)).trans hname

theorem mem_foldl_addTagName :
    a ∈ names.foldl addTagName kept ↔ a ∈ kept ∨ a ∈ names ∧ a ≠ [] := by
  induction names generalizing kept with
  | nil => simp
  | cons name names ih =>
      rw [List.foldl_cons, ih, mem_addTagName, List.mem_cons]
      tauto

theorem nodup_foldl_addTagName (h : kept.Nodup) : (names.foldl addTagName kept).Nodup := by
  induction names generalizing kept with
  | nil => exact h
  | cons name names ih => exact ih (nodup_addTagName h)

/-- New names, each once and none of them empty, are all kept. -/
theorem foldl_addTagName_of_nodup (h : names.Nodup) (hne : ∀ name ∈ names, name ≠ []) :
    names.foldl addTagName [] = names := by
  have hperm : (names.foldl addTagName []).Perm names := by
    refine (List.perm_ext_iff_of_nodup (nodup_foldl_addTagName List.nodup_nil) h).2 fun a => ?_
    rw [mem_foldl_addTagName]
    exact ⟨fun ha => (ha.resolve_left List.not_mem_nil).1, fun ha => .inr ⟨ha, hne a ha⟩⟩
  exact (foldl_addTagName_sublist names []).eq_of_length hperm.length_eq

end Kept

/-- What is kept of names: their forms, less the empty one. -/
theorem mem_normalizeTags {name : Text} {tags : List Text} :
    name ∈ normalizeTags tags ↔ name ≠ [] ∧ ∃ tag ∈ tags, normalizeTag tag = name := by
  rw [normalizeTags, mem_foldl_addTagName, List.mem_map]
  simp [and_comm]

theorem nodup_normalizeTags (tags : List Text) : (normalizeTags tags).Nodup :=
  nodup_foldl_addTagName List.nodup_nil

/-- **Names stay as they are** when they are in their form already, each once. -/
theorem normalizeTags_eq_self_iff {names : List Text} :
    normalizeTags names = names ↔
      names.Nodup ∧ ∀ name ∈ names, name ≠ [] ∧ normalizeTag name = name := by
  constructor
  · intro h
    have hmem : ∀ name ∈ names, name ≠ [] := fun name hname => (mem_normalizeTags.1 (h ▸ hname)).1
    -- nothing is left out, so the forms are the names themselves
    have hmap : normalizeTags names = names.map normalizeTag :=
      (foldl_addTagName_sublist (names.map normalizeTag) []).eq_of_length
        (by rw [← normalizeTags, h]; simp)
    have hfix : ∀ name ∈ names, normalizeTag name = name := by
      rw [← List.map_inj_left (g := fun name => name), ← hmap, h, List.map_id']
    exact ⟨h ▸ nodup_normalizeTags names, fun name hname => ⟨hmem name hname, hfix name hname⟩⟩
  · rintro ⟨hnodup, hform⟩
    have hmap : names.map normalizeTag = names := by
      calc names.map normalizeTag = names.map id :=
            List.map_congr_left fun name hname => (hform name hname).2
        _ = names := List.map_id names
    rw [normalizeTags, hmap]
    exact foldl_addTagName_of_nodup hnodup fun name hname => (hform name hname).1

/-! ### The form of a name -/

namespace Text

/-- Neither blanks nor the at sign are letters with a case. -/
theorem land_blankCodes :
    mask (capitalCodes ++ smallCodes) &&& mask (0x40 :: DocBlock.blankCodes) = 0 := by
  decide +kernel

theorem isBlank_of_mem_codes {c : Char} (h : c.toNat ∈ capitalCodes ++ smallCodes) :
    isBlank c = false ∧ c ≠ '@' := by
  have hmem := not_mem_of_land_mask land_blankCodes h
  rw [List.mem_cons, not_or] at hmem
  refine ⟨Bool.eq_false_iff.2 fun hblank => hmem.2 (DocBlock.mem_blankCodes hblank), ?_⟩
  rintro rfl
  exact hmem.1 rfl

theorem Becomes.isBlank_eq {c x : Char} (h : Becomes c x) : isBlank x = isBlank c := by
  obtain rfl | ⟨hc, hx⟩ := h.eq_or_mem
  · rfl
  · rw [(isBlank_of_mem_codes (List.mem_append_left _ hc)).1,
      (isBlank_of_mem_codes (List.mem_append_right _ hx)).1]

theorem Becomes.ne_at {c x : Char} (h : Becomes c x) (hc : c ≠ '@') : x ≠ '@' := by
  obtain rfl | ⟨-, hx⟩ := h.eq_or_mem
  · exact hc
  · exact (isBlank_of_mem_codes (List.mem_append_right _ hx)).2

/-- A text that does not end with a blank does not do so in lower case. -/
theorem trimEnd_lowercase {cs : Text} (h : trimEnd cs = cs) :
    trimEnd (lowercase cs) = lowercase cs := by
  obtain rfl | ⟨front, c, rfl⟩ := List.eq_nil_or_concat' cs
  · rfl
  · obtain ⟨x, hx, hbecomes⟩ := getLast?_lowercase_append front c
    have hc : isBlank c = false := isBlank_of_trimEnd_eq h List.getLast?_concat
    exact trimEnd_of_last hx (hbecomes.isBlank_eq.trans hc)

end Text

/-- A blank stands behind the signs of a name: `@ package`. -/
def SignApart (tag : Text) : Prop :=
  ∃ n b rest, trim tag = List.replicate (n + 1) '@' ++ b :: rest ∧ isBlank b = true

section Form

variable {tag : Text}

/-- The name behind the signs, before its capitals become small. -/
def behindSigns (tag : Text) : Text := (trim tag).dropWhile (· == '@')

theorem normalizeTag_eq (tag : Text) : normalizeTag tag = lowercase (behindSigns tag) := rfl

/-- A trimmed text is signs and the name behind them. -/
theorem exists_signs (tag : Text) : ∃ n, trim tag = List.replicate n '@' ++ behindSigns tag := by
  refine ⟨((trim tag).takeWhile (· == '@')).length, ?_⟩
  have hsigns : (trim tag).takeWhile (· == '@') =
      List.replicate ((trim tag).takeWhile (· == '@')).length '@' := by
    refine List.eq_replicate_iff.2 ⟨rfl, fun c hc => ?_⟩
    simpa using List.all_eq_true.1 List.all_takeWhile c hc
  rw [← hsigns, behindSigns, List.takeWhile_append_dropWhile]

theorem head?_behindSigns (tag : Text) : (behindSigns tag).head? ≠ some '@' := by
  intro h
  have hnot := List.head?_dropWhile_not (· == '@') (trim tag)
  rw [← behindSigns, h] at hnot
  simp at hnot

theorem trimEnd_behindSigns (tag : Text) : trimEnd (behindSigns tag) = behindSigns tag :=
  trimEnd_of_suffix (List.dropWhile_suffix _) (trimEnd_trimEnd _)

theorem signApart_iff :
    SignApart tag ↔ ∃ b, (behindSigns tag).head? = some b ∧ isBlank b = true := by
  constructor
  · rintro ⟨n, b, rest, htrim, hblank⟩
    have hb : (b == '@') = false := by
      rw [beq_eq_false_iff_ne]
      rintro rfl
      exact absurd hblank (by decide)
    refine ⟨b, ?_, hblank⟩
    rw [behindSigns, htrim, List.dropWhile_append_of_pos (by simp),
      List.dropWhile_cons_of_neg (by simp [hb]), List.head?_cons]
  · rintro ⟨b, hb, hblank⟩
    obtain ⟨rest, hrest⟩ := List.head?_eq_some_iff.1 hb
    obtain ⟨n, htrim⟩ := exists_signs tag
    cases n with
    | zero =>
        -- without a sign the trimmed text would begin with the blank
        rw [hrest, List.replicate_zero, List.nil_append] at htrim
        rw [(exists_trimStart_of_trim_eq_cons htrim).1] at hblank
        cases hblank
    | succ n => exact ⟨n, b, rest, hrest ▸ htrim, hblank⟩

theorem isSmall_of_mem_normalizeTag {c : Char} (h : c ∈ normalizeTag tag) : IsSmall c :=
  isSmall_of_mem_lowercase h

/-- A name does not begin with a sign. -/
theorem head?_normalizeTag (tag : Text) : (normalizeTag tag).head? ≠ some '@' := by
  rw [normalizeTag_eq]
  cases h : behindSigns tag with
  | nil => simp
  | cons c cs =>
      obtain ⟨x, hx, hbecomes⟩ := head?_lowercase_cons c cs
      have hc : c ≠ '@' := by
        rintro rfl
        exact head?_behindSigns tag (by rw [h]; rfl)
      rw [hx, ne_eq, Option.some.injEq]
      exact hbecomes.ne_at hc

/-- A name does not end with a blank. -/
theorem trimEnd_normalizeTag (tag : Text) : trimEnd (normalizeTag tag) = normalizeTag tag :=
  trimEnd_lowercase (trimEnd_behindSigns tag)

/-- **Only behind a sign a blank is kept.** -/
theorem trim_normalizeTag_iff : trim (normalizeTag tag) = normalizeTag tag ↔ ¬ SignApart tag := by
  rw [signApart_iff]
  cases h : behindSigns tag with
  | nil => simp [normalizeTag_eq, h, trim, trimStart, trimEnd, dropEndWhile]
  | cons c cs =>
      obtain ⟨x, hx, hbecomes⟩ := head?_lowercase_cons c cs
      have hname : (normalizeTag tag).head? = some x := by rw [normalizeTag_eq, h, hx]
      obtain ⟨rest, hrest⟩ := List.head?_eq_some_iff.1 hname
      have hblank : (∃ b, (c :: cs).head? = some b ∧ isBlank b = true) ↔ isBlank x = true := by
        simp [hbecomes.isBlank_eq]
      rw [hblank, Bool.not_eq_true]
      constructor
      · intro htrim
        rw [hrest] at htrim
        exact (exists_trimStart_of_trim_eq_cons htrim).1
      · intro hx
        have hend := trimEnd_normalizeTag tag
        rw [hrest] at hend ⊢
        rw [trim_cons hx, ← trimEnd_cons hx, hend]

/-- A name is in its form exactly when it is trimmed. -/
theorem normalizeTag_normalizeTag_iff :
    normalizeTag (normalizeTag tag) = normalizeTag tag ↔
      trim (normalizeTag tag) = normalizeTag tag := by
  have hpart : behindSigns (normalizeTag tag) <:+: normalizeTag tag :=
    (List.dropWhile_suffix _).isInfix.trans (infix_trim _)
  have hsmall : normalizeTag (normalizeTag tag) = behindSigns (normalizeTag tag) := by
    rw [normalizeTag_eq]
    exact lowercase_of_isSmall fun c hc => isSmall_of_mem_normalizeTag (hpart.mem hc)
  rw [hsmall]
  constructor
  · intro h
    refine (infix_trim _).eq_of_length (Nat.le_antisymm (infix_trim _).length_le ?_)
    calc (normalizeTag tag).length = (behindSigns (normalizeTag tag)).length := by rw [h]
      _ ≤ (trim (normalizeTag tag)).length := (List.dropWhile_suffix _).length_le
  · intro h
    rw [behindSigns, h]
    cases hname : normalizeTag tag with
    | nil => rfl
    | cons c cs =>
        have hc : c ≠ '@' := by
          rintro rfl
          exact head?_normalizeTag tag (by rw [hname]; rfl)
        exact List.dropWhile_cons_of_neg (by simpa using hc)

end Form

/-! ### Names that comments give -/

/-- A name that some comment gives to a tag. -/
def NamesTag (name : Text) : Prop :=
  ∃ raw line block, DocBlock.read raw line = .ok block ∧ ∃ t ∈ block.tags, t.name = name

theorem DocTag.name_ofContent (n : Nat) (name content : Text) :
    (ofContent n name content).name = name := by
  unfold ofContent
  dsimp only
  split
  · next hparam =>
    split
    · exact hparam.symm
    · rfl
  · split
    · next hresult => exact hresult.symm
    · split
      · next hvar => split <;> exact hvar.symm
      · rfl

namespace DocBlock

/-- The names of the tags are those of tag lines. -/
theorem exists_tagName_of_mem_tagsFrom {t : DocTag} {ls : List Text} {n : Nat}
    (h : t ∈ tagsFrom n ls) : ∃ l ∈ ls, t.name = tagName l := by
  induction ls generalizing n with
  | nil => cases h
  | cons l ls ih =>
      have hlater : t ∈ tagsFrom (n + 1) ls → ∃ k ∈ l :: ls, t.name = tagName k := fun h => by
        obtain ⟨k, hk, hname⟩ := ih h
        exact ⟨k, List.mem_cons_of_mem _ hk, hname⟩
      cases hl : beginsTag l with
      | false => exact hlater (by rwa [tagsFrom_cons_other hl] at h)
      | true =>
          rw [tagsFrom_cons_tag hl, List.mem_cons] at h
          obtain rfl | h := h
          · exact ⟨l, List.mem_cons_self, DocTag.name_ofContent _ _ _⟩
          · exact hlater h

/-- No blank stands in the name of a tag line. -/
theorem isBlank_of_mem_tagName {c : Char} {l : Text} (h : c ∈ tagName l) : isBlank c = false := by
  obtain ⟨a, ha, hbecomes⟩ := exists_becomes_of_mem_lowercase h
  rw [hbecomes.isBlank_eq]
  exact isBlank_of_isTagNameChar (List.all_eq_true.1 List.all_takeWhile a ha)

/-- A name behind a sign is the name of the tag. -/
theorem tagName_sign {name : Text} (hchars : ∀ c ∈ name, isTagNameChar c = true)
    (hsmall : lowercase name = name) : tagName ('@' :: name) = name := by
  have hbody : tagBody ('@' :: name) = name := by
    rw [tagBody, trimStart_cons (by decide)]
    rfl
  have hall : name.takeWhile isTagNameChar = name ++ [].takeWhile isTagNameChar := by
    rw [← List.takeWhile_append_of_pos hchars, List.append_nil]
  rw [tagName, hbody, hall, List.takeWhile_nil, List.append_nil, hsmall]

end DocBlock

/-- The name of a tag is trimmed. -/
theorem NamesTag.trim_eq {name : Text} (h : NamesTag name) : trim name = name := by
  obtain ⟨raw, line, block, hread, t, ht, rfl⟩ := h
  rw [DocBlock.read_eq] at hread
  split at hread
  · cases hread
  · cases hread
    obtain ⟨l, -, hname⟩ := DocBlock.exists_tagName_of_mem_tagsFrom ht
    rw [hname]
    cases htag : DocBlock.tagName l with
    | nil => rfl
    | cons c cs =>
        refine (tight_of_forall (by simp) fun x hx => ?_).trim_eq
        exact DocBlock.isBlank_of_mem_tagName (l := l) (htag ▸ hx)

namespace DocBlock

/-- A comment with a line between its delimiters. -/
def aroundLine (l : Text) : Text :=
  join "\n" (["/**".toList, " * ".toList ++ l] ++ [" */".toList])

/-- The line is found again between the delimiters. -/
theorem cleanLines_aroundLine {l : Text} (hne : l ≠ []) (htrim : trimEnd l = l)
    (hnewline : '\n' ∉ l) (hopen : StaysOpen l) : cleanLines (aroundLine l) = [[], l, []] := by
  have hlines : lines (aroundLine l) = ["/**".toList, " * ".toList ++ l, " */".toList] := by
    refine lines_join ?_ (by decide) (by decide)
    rw [List.forall_mem_cons, List.forall_mem_singleton]
    exact ⟨⟨by decide, by decide⟩, isLine_append (by decide) hne htrim hnewline⟩
  have hfirst : cleanLine "/**".toList = [] := by decide
  have hlast : cleanLine " */".toList = [] := by decide
  rw [cleanLines, hlines, List.map_cons, List.map_cons, List.map_singleton, hfirst, hlast,
    cleanLine_append hne htrim hopen]

/-- A tag with a name is read from its line. -/
theorem read_aroundLine {l : Text} (hclean : cleanLines (aroundLine l) = [[], l, []])
    (htag : beginsTag l = true) (hname : isNameless l = false) :
    ∃ block, read (aroundLine l) 1 = .ok block ∧ tagOf 2 l [[]] ∈ block.tags := by
  have hnone : [[], l, []].findIdx? isNameless = none := by
    have hnil : isNameless [] = false := rfl
    simp [hname, hnil]
  refine ⟨ofLines 1 [[], l, []], by rw [read_eq, hclean, hnone], ?_⟩
  exact List.mem_of_getElem? (i := 0) (getElem?_tagsFrom (i := 1) (l := l) rfl htag 1)

end DocBlock

/-- A name in small letters is given to a tag when it can stand behind a sign. -/
theorem namesTag_of_isTagNameChar {name : Text} (hne : name ≠ [])
    (hchars : ∀ c ∈ name, DocBlock.isTagNameChar c = true) (hsmall : lowercase name = name) :
    NamesTag name := by
  have hblank : ∀ c ∈ '@' :: name, isBlank c = false :=
    List.forall_mem_cons.2
      ⟨by decide, fun c hc => DocBlock.isBlank_of_isTagNameChar (hchars c hc)⟩
  have htrim : trimEnd ('@' :: name) = '@' :: name :=
    DocBlock.trimEnd_of_trim_eq (tight_of_forall (by simp) hblank).trim_eq
  have hslash : '/' ∉ '@' :: name := by
    rw [List.mem_cons, not_or]
    exact ⟨by decide, fun h => absurd (hchars _ h) (by decide +kernel)⟩
  have hclean := DocBlock.cleanLines_aroundLine (by simp) htrim
    (fun h => absurd (hblank _ h) (by decide)) (staysOpen_of_not_mem hslash)
  have hstart : trimStart ('@' :: name) = '@' :: name := trimStart_cons (by decide) name
  have htag : DocBlock.beginsTag ('@' :: name) = true :=
    DocBlock.beginsTag_of_sign (by rw [hstart, List.head?_cons])
  have hnamed : DocBlock.isNameless ('@' :: name) = false := by
    obtain ⟨c, cs, rfl⟩ := List.exists_cons_of_ne_nil hne
    simp [DocBlock.isNameless, DocBlock.afterSign, hstart, hchars c List.mem_cons_self]
  obtain ⟨block, hread, hmem⟩ := DocBlock.read_aroundLine hclean htag hnamed
  refine ⟨_, 1, block, hread, _, hmem, ?_⟩
  rw [DocBlock.tagOf, DocTag.name_ofContent, DocBlock.tagName_sign hchars hsmall]

/-! ### The normal form -/

/-- A name with a blank behind its signs is kept. -/
theorem mem_normalizeTags_of_signApart {tag : Text} {tags : List Text} (htag : tag ∈ tags)
    (hapart : SignApart tag) : normalizeTag tag ∈ normalizeTags tags := by
  refine mem_normalizeTags.2 ⟨fun hnil => ?_, tag, htag, rfl⟩
  exact trim_normalizeTag_iff.1 (by rw [hnil]; rfl) hapart

/-- The names that are kept are trimmed exactly when no sign stands apart. -/
theorem forall_trim_normalizeTags_iff (tags : List Text) :
    (∀ name ∈ normalizeTags tags, trim name = name) ↔ ∀ tag ∈ tags, ¬ SignApart tag := by
  constructor
  · intro h tag htag hapart
    exact trim_normalizeTag_iff.1 (h _ (mem_normalizeTags_of_signApart htag hapart)) hapart
  · intro h name hname
    obtain ⟨-, tag, htag, rfl⟩ := mem_normalizeTags.1 hname
    exact trim_normalizeTag_iff.2 (h tag htag)

/-- Names that are kept stay as they are exactly when they are trimmed. -/
theorem normalizeTags_normalizeTags_iff (tags : List Text) :
    normalizeTags (normalizeTags tags) = normalizeTags tags ↔
      ∀ name ∈ normalizeTags tags, trim name = name := by
  have hform : ∀ name ∈ normalizeTags tags, (normalizeTag name = name ↔ trim name = name) := by
    intro name hname
    obtain ⟨-, tag, -, rfl⟩ := mem_normalizeTags.1 hname
    exact normalizeTag_normalizeTag_iff
  rw [normalizeTags_eq_self_iff]
  constructor
  · exact fun h name hname => (hform name hname).1 (h.2 name hname).2
  · exact fun h => ⟨nodup_normalizeTags tags, fun name hname =>
      ⟨(mem_normalizeTags.1 hname).1, (hform name hname).2 (h name hname)⟩⟩

/-- **A list of names reaches its normal form exactly when no sign stands apart.**  Whatever is
written, the names that are kept are pairwise distinct and not empty, and none begins with a sign or
ends with a blank; those that can stand behind a sign are names of tags.  A second pass leaves them
as they are, and none begins with a blank, exactly when no blank stands behind the signs of a name;
where one does, the name that is kept is the name of no tag. -/
theorem normalizeTags_normal (tags : List Text) :
    (normalizeTags tags).Nodup ∧
      (∀ name ∈ normalizeTags tags,
        name ≠ [] ∧ name.head? ≠ some '@' ∧ trimEnd name = name ∧
          ((∀ c ∈ name, DocBlock.isTagNameChar c = true) → NamesTag name)) ∧
      (normalizeTags (normalizeTags tags) = normalizeTags tags ↔ ∀ tag ∈ tags, ¬ SignApart tag) ∧
      ((∀ name ∈ normalizeTags tags, trim name = name) ↔ ∀ tag ∈ tags, ¬ SignApart tag) ∧
      ∀ tag ∈ tags, SignApart tag →
        normalizeTag tag ∈ normalizeTags tags ∧ ¬ NamesTag (normalizeTag tag) := by
  have htrim := forall_trim_normalizeTags_iff tags
  refine ⟨nodup_normalizeTags tags, ?_, (normalizeTags_normalizeTags_iff tags).trans htrim, htrim,
    ?_⟩
  · intro name hname
    obtain ⟨hne, tag, -, rfl⟩ := mem_normalizeTags.1 hname
    refine ⟨hne, head?_normalizeTag tag, trimEnd_normalizeTag tag, fun hchars => ?_⟩
    exact namesTag_of_isTagNameChar hne hchars
      (lowercase_of_isSmall fun c hc => isSmall_of_mem_normalizeTag hc)
  · intro tag htag hapart
    exact ⟨mem_normalizeTags_of_signApart htag hapart, fun hnames =>
      trim_normalizeTag_iff.1 hnames.trim_eq hapart⟩

/-- The name of `@Author` is found in comments; of `@ package` a name is kept that is not. -/
theorem normalizeTags_normal_of_two_names :
    normalizeTags ["@Author".toList, "@ package".toList] =
        ["author".toList, " package".toList] ∧
      NamesTag "author".toList ∧ ¬ NamesTag " package".toList := by
  have hkept : normalizeTags ["@Author".toList, "@ package".toList] =
      ["author".toList, " package".toList] := by decide +kernel
  have hform : normalizeTag "@ package".toList = " package".toList := by decide +kernel
  have hapart : SignApart "@ package".toList := ⟨0, ' ', "package".toList, by decide, by decide⟩
  have hchars : "author".toList.all DocBlock.isTagNameChar = true := by decide +kernel
  have hmain := normalizeTags_normal ["@Author".toList, "@ package".toList]
  refine ⟨hkept, (hmain.2.1 _ (by rw [hkept]; decide)).2.2.2 (List.all_eq_true.1 hchars), ?_⟩
  rw [← hform]
  exact (hmain.2.2.2.2 _ (by decide) hapart).2

/-- The blank behind the sign of `@ package` is kept; a second pass takes it away. -/
theorem normalizeTags_of_signApart :
    normalizeTags ["@ package".toList] = [" package".toList] ∧
      normalizeTags (normalizeTags ["@ package".toList]) ≠ normalizeTags ["@ package".toList] ∧
      trim " package".toList ≠ " package".toList := by
  decide +kernel

end HintCheck
