/-
**A comment line by line.**

Reading a comment neither loses a line nor makes one up.  The lines that begin a tag are told by
their first characters alone, and each of them gives one tag, with its own number.  The lines in
front of the first one are the description, less the blank ones at its edges.  Any other line stands
behind a tag line, and its words are put behind the content of that tag.

Main definitions:

* `HintCheck.DocBlock.cleanLines` — the lines of a comment without the delimiters;
* `HintCheck.DocBlock.isNameless` — a tag line without the name of a tag behind its sign;
* `HintCheck.DocBlock.ownContent`, `HintCheck.DocBlock.extend` — what a tag line says itself, and
  how another line continues it;
* `HintCheck.DocBlock.tagOf`, `HintCheck.DocBlock.tagsFrom` — the tag of a tag line and the lines
  behind it, and the tags of all lines;
* `HintCheck.DocBlock.ofLines` — the comment of lines;
* `HintCheck.DocBlock.KeepsLines` — a comment has the lines of a text.

Main results:

* `HintCheck.DocBlock.readTag_eq`, `HintCheck.DocBlock.read_eq` — a tag and a comment are read line
  by line;
* `HintCheck.DocBlock.mapM_readTag_groupByTag` — the first tag line without a name decides;
* `HintCheck.DocBlock.read_by_lines` — **a comment has the lines of its text**, or a tag line of it
  has no name.
-/

import HintCheck.Proofs.Doc.RoundTrip

set_option relaxedAutoImplicit false
set_option autoImplicit false

namespace HintCheck

namespace DocTag

/-! ### Lines of tags -/

theorem line_atLine (m : Nat) (t : DocTag) : (t.atLine m).line = m := by
  cases t <;> rfl

/-- A name and a text make the same tag on every line. -/
theorem atLine_ofContent (m n : Nat) (name content : Text) :
    (ofContent n name content).atLine m = ofContent m name content := by
  unfold ofContent
  dsimp only
  split
  · split <;> rfl
  · split
    · rfl
    · split
      · split <;> rfl
      · rfl

theorem line_ofContent (n : Nat) (name content : Text) : (ofContent n name content).line = n := by
  rw [← atLine_ofContent n n, line_atLine]

end DocTag

namespace DocBlock

open Text

/-! ### Tag lines -/

/-- The lines of a comment without the delimiters. -/
def cleanLines (raw : Text) : List Text := (lines raw).map cleanLine

/-- What stands behind the sign of a tag line. -/
def afterSign (line : Text) : Text :=
  match trimStart line with
  | '\x7b' :: '@' :: rest => rest
  | '@' :: rest => rest
  | _ => []

/-- A tag line with no character of a tag's name right behind its sign. -/
def isNameless (line : Text) : Bool := beginsTag line && !(afterSign line).head?.any isTagNameChar

/-- The name of the tag that a line begins, in small letters. -/
def tagName (line : Text) : Text := lowercase ((tagBody line).takeWhile isTagNameChar)

/-- What a tag line says behind the name. -/
def ownContent (line : Text) : Text := trim ((tagBody line).dropWhile isTagNameChar)

/-- The content of a tag with the words of another line, a space between them. -/
def extend (content line : Text) : Text :=
  if content.isEmpty then trim line else content ++ behind (trim line)

/-- The tag of a tag line on a line of a source and of the lines that continue it. -/
def tagOf (n : Nat) (line : Text) (more : List Text) : DocTag :=
  DocTag.ofContent n (tagName line) (more.foldl extend (ownContent line))

/-! ### Names -/

/-- A tag in braces has the first character behind its sign, whether or not a brace ends it. -/
theorem head?_any_dropSuffix? (rest : Text) :
    ((dropSuffix? ['\x7d'] (trimEnd rest)).getD rest).head?.any isTagNameChar =
      rest.head?.any isTagNameChar := by
  cases hs : dropSuffix? ['\x7d'] (trimEnd rest) with
  | none => rfl
  | some front =>
      have hbrace : isTagNameChar '\x7d' = false := by decide +kernel
      obtain ⟨w, -, hw⟩ := trimEnd_append_rest rest
      have hrest : rest = front ++ '\x7d' :: w := by
        rw [hw, ← List.append_eq_of_isSuffixOf?_eq_some hs]
        simp
      rw [hrest, Option.getD_some]
      cases front with
      | nil => simp [hbrace]
      | cons c cs => rfl

theorem head?_any_tagBody {line : Text} (h : beginsTag line = true) :
    (tagBody line).head?.any isTagNameChar = (afterSign line).head?.any isTagNameChar := by
  unfold beginsTag at h
  split at h
  · next rest hline => simp [tagBody, afterSign, hline]
  · next rest hline =>
    simp only [tagBody, afterSign, hline]
    exact head?_any_dropSuffix? rest
  · cases h

/-- The name of a tag line is empty exactly when none stands behind its sign. -/
theorem takeWhile_tagBody_eq_nil_iff {line : Text} (h : beginsTag line = true) :
    (tagBody line).takeWhile isTagNameChar = [] ↔ isNameless line = true := by
  rw [isNameless, h, ← head?_any_tagBody h]
  cases tagBody line with
  | nil => simp
  | cons c cs => by_cases hc : isTagNameChar c = true <;> simp [hc]

theorem isNameless_of_other {line : Text} (h : beginsTag line = false) :
    isNameless line = false := by
  simp [isNameless, h]

/-! ### Contents -/

theorem spaced_extend (content line : Text) (ps : List Text) :
    spaced (extend content line :: ps) = spaced (content :: trim line :: ps) := by
  cases content with
  | nil => rfl
  | cons c cs =>
      have hextend : extend (c :: cs) line = c :: cs ++ behind (trim line) := rfl
      rw [hextend, spaced_cons (by simp), spaced_cons (by simp), List.append_assoc]
      cases hline : trim line with
      | nil => rfl
      | cons d ds => rw [spaced_cons (by simp), behind_append (by simp)]

/-- Lines continue a content as words that stand behind it. -/
theorem foldl_extend (content : Text) (ls : List Text) :
    ls.foldl extend content = spaced (content :: ls.map trim) := by
  induction ls generalizing content with
  | nil => simp
  | cons l ls ih => rw [List.foldl_cons, ih, spaced_extend, List.map_cons]

/-- **A tag is read line by line**, when its first line has a name. -/
theorem readTag_eq {l : Text × Nat} (h : beginsTag l.1 = true) (more : List (Text × Nat)) :
    readTag (l, more) =
      if isNameless l.1 then .error (.emptyTagName l.2)
      else .ok (tagOf l.2 l.1 (more.map (·.1))) := by
  have hname := takeWhile_tagBody_eq_nil_iff h
  simp only [readTag]
  split
  · next hnil => rw [if_pos (hname.1 hnil)]
  · next hne =>
    rw [if_neg fun hnil => hne (hname.2 hnil), tagOf, foldl_extend]
    rfl

/-! ### The tags of lines -/

/-- The tags of lines, of which the first one has a given number: each tag line gives one, and the
lines up to the next tag line continue it. -/
def tagsFrom : Nat → List Text → List DocTag
  | _, [] => []
  | n, l :: ls =>
    if beginsTag l then tagOf n l (ls.takeWhile (!beginsTag ·)) :: tagsFrom (n + 1) ls
    else tagsFrom (n + 1) ls

theorem tagsFrom_cons_tag {l : Text} (h : beginsTag l = true) (n : Nat) (ls : List Text) :
    tagsFrom n (l :: ls) = tagOf n l (ls.takeWhile (!beginsTag ·)) :: tagsFrom (n + 1) ls := by
  rw [tagsFrom, if_pos h]

theorem tagsFrom_cons_other {l : Text} (h : beginsTag l = false) (n : Nat) (ls : List Text) :
    tagsFrom n (l :: ls) = tagsFrom (n + 1) ls := by
  rw [tagsFrom, if_neg (by simp [h])]

/-- The lines in front of the first tag line belong to no tag. -/
theorem fst_groupByTag_zipIdx (ls : List Text) (n : Nat) :
    (groupByTag (ls.zipIdx n)).1 = (ls.takeWhile (!beginsTag ·)).zipIdx n := by
  induction ls generalizing n with
  | nil => rfl
  | cons l ls ih =>
      rw [List.zipIdx_cons, groupByTag]
      by_cases hl : beginsTag l = true
      · simp [hl]
      · simp [hl, ih, List.zipIdx_cons]

/-- **The groups of lines give the tags**, unless a tag line has no name: the first one decides. -/
theorem mapM_readTag_groupByTag (ls : List Text) (n : Nat) :
    (groupByTag (ls.zipIdx n)).2.mapM readTag =
      match ls.findIdx? isNameless with
      | some i => .error (.emptyTagName (n + i))
      | none => .ok (tagsFrom n ls) := by
  induction ls generalizing n with
  | nil => rfl
  | cons l ls ih =>
      have hplace : ∀ i, n + 1 + i = n + (i + 1) := fun i => by omega
      rw [List.zipIdx_cons, groupByTag, List.findIdx?_cons]
      cases hl : beginsTag l with
      | true =>
          have hread := readTag_eq (l := (l, n)) hl (groupByTag (ls.zipIdx (n + 1))).1
          rw [fst_groupByTag_zipIdx, List.zipIdx_map_fst] at hread
          rw [if_pos rfl, List.mapM_cons, fst_groupByTag_zipIdx, hread, ih, tagsFrom_cons_tag hl]
          cases hname : isNameless l with
          | true => rfl
          | false =>
              cases hrest : ls.findIdx? isNameless with
              | none => rfl
              | some i => simp [hplace, bind, Except.bind]
      | false =>
          rw [if_neg (by simp), ih, tagsFrom_cons_other hl, isNameless_of_other hl]
          cases hrest : ls.findIdx? isNameless with
          | none => rfl
          | some i => simp [hplace]

/-- The tags stand on the tag lines. -/
theorem lines_tagsFrom (n : Nat) (ls : List Text) :
    (tagsFrom n ls).map DocTag.line = ls.findIdxs beginsTag n := by
  induction ls generalizing n with
  | nil => rfl
  | cons l ls ih =>
      cases hl : beginsTag l with
      | true =>
          rw [tagsFrom_cons_tag hl, List.map_cons, ih, List.findIdxs_cons, if_pos hl, tagOf,
            DocTag.line_ofContent]
      | false =>
          rw [tagsFrom_cons_other hl, ih, List.findIdxs_cons, if_neg (by simp [hl])]

theorem length_tagsFrom (n : Nat) (ls : List Text) :
    (tagsFrom n ls).length = ls.countP beginsTag := by
  rw [← List.length_map DocTag.line, lines_tagsFrom, List.length_findIdxs]

/-- The tag of a tag line is the one behind the tags of the lines in front. -/
theorem getElem?_tagsFrom {ls : List Text} {i : Nat} {l : Text} (hl : ls[i]? = some l)
    (htag : beginsTag l = true) (n : Nat) :
    (tagsFrom n ls)[(ls.take i).countP beginsTag]? =
      some (tagOf (n + i) l ((ls.drop (i + 1)).takeWhile (!beginsTag ·))) := by
  induction ls generalizing i n with
  | nil => simp at hl
  | cons k ls ih =>
      cases i with
      | zero =>
          obtain rfl : k = l := by simpa using hl
          simp [tagsFrom_cons_tag htag]
      | succ i =>
          have ih := ih (by simpa using hl) (n + 1)
          have hplace : n + 1 + i = n + (i + 1) := by omega
          rw [hplace] at ih
          cases hk : beginsTag k with
          | true => simpa [hk, tagsFrom_cons_tag hk] using ih
          | false => simpa [hk, tagsFrom_cons_other hk] using ih

/-! ### The comment -/

/-- The comment of lines, of which the first one has a given number. -/
def ofLines (line : Nat) (ls : List Text) : DocBlock where
  description := dropBlankEdges ((ls.takeWhile (!beginsTag ·)).zipIdx line)
  tags := tagsFrom line ls

/-- A comment is read line by line; the first tag line without a name is reported. -/
theorem read_eq (raw : Text) (line : Nat) :
    read raw line =
      match (cleanLines raw).findIdx? isNameless with
      | some i => .error (.emptyTagName (line + i))
      | none => .ok (ofLines line (cleanLines raw)) := by
  have htags := mapM_readTag_groupByTag (cleanLines raw) line
  have hfst := fst_groupByTag_zipIdx (cleanLines raw) line
  rw [cleanLines] at htags hfst ⊢
  simp only [read, htags, hfst]
  cases ((lines raw).map cleanLine).findIdx? isNameless <;> rfl

/-- Comments cannot be read for one reason only. -/
theorem exists_eq_emptyTagName_of_read {raw : Text} {line : Nat} {e : ReadError}
    (h : read raw line = .error e) : ∃ n, e = .emptyTagName n := by
  rw [read_eq] at h
  split at h
  · exact ⟨_, (Except.error.inj h).symm⟩
  · cases h

/-- A comment has the lines of a text, of which the first one has a given number. -/
structure KeepsLines (b : DocBlock) (ls : List Text) (line : Nat) : Prop where
  /-- There is one tag for each tag line, with its number and in order. -/
  lines : b.tags.map DocTag.line = ls.findIdxs beginsTag line
  increasing : (b.tags.map DocTag.line).Pairwise (· < ·)
  /-- The tag of a tag line is made of the line and of those up to the next tag line. -/
  tag : ∀ i l, ls[i]? = some l → beginsTag l = true →
    b.tags[(ls.take i).countP beginsTag]? =
      some (tagOf (line + i) l ((ls.drop (i + 1)).takeWhile (!beginsTag ·)))
  /-- Of the lines in front of the first tag line, only blank ones at the edges are left out. -/
  description : ∃ before after,
    (ls.takeWhile (!beginsTag ·)).zipIdx line = before ++ b.description ++ after ∧
      (∀ l ∈ before, isBlankLine l = true) ∧ ∀ l ∈ after, isBlankLine l = true
  /-- What is kept begins and ends with a line that is not blank. -/
  first : ∀ l ∈ b.description.head?, isBlankLine l = false
  last : ∀ l ∈ b.description.getLast?, isBlankLine l = false

theorem keepsLines_ofLines (line : Nat) (ls : List Text) :
    KeepsLines (ofLines line ls) ls line where
  lines := lines_tagsFrom line ls
  increasing := by
    rw [ofLines, lines_tagsFrom]
    exact List.pairwise_findIdxs
  tag _ _ hl htag := getElem?_tagsFrom hl htag line
  description := exists_dropBlankEdges _
  first := (isBlankLine_of_dropBlankEdges _).1
  last := (isBlankLine_of_dropBlankEdges _).2

/-- **A comment has the lines of its text**, or the first tag line without a name is reported. -/
theorem read_by_lines (raw : Text) (line : Nat) :
    match (cleanLines raw).findIdx? isNameless with
    | some i => read raw line = .error (.emptyTagName (line + i))
    | none => ∃ b, read raw line = .ok b ∧ KeepsLines b (cleanLines raw) line := by
  have hread := read_eq raw line
  cases hname : (cleanLines raw).findIdx? isNameless with
  | none =>
      rw [hname] at hread
      exact ⟨_, hread, keepsLines_ofLines line _⟩
  | some i =>
      rw [hname] at hread
      exact hread

end DocBlock

end HintCheck
