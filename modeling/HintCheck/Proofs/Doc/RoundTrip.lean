/-
**Reading back a written comment.**

A comment is written line by line: its beginning, the lines of the description, a line for each tag,
and its end.  Reading it gives the description, less the blank lines at its edges, and the tags,
each with the line it stands on.

A name of a variable may end with the characters that end a comment.  Where nothing stands behind
it on its line, they are cut off with the end of the comment, and the tag is not read back.

Main definitions:

* `HintCheck.DocBlock.commentText` — the text of a comment;
* `HintCheck.DocBlock.IsProse` — the lines that a description can have;
* `HintCheck.DocBlock.Retells` — what a read comment has in common with what was written.

Main results:

* `HintCheck.DocBlock.cleanLines_commentText` — the delimiters are removed line by line;
* `HintCheck.DocBlock.groupByTag_append`, `HintCheck.DocBlock.groupByTag_tags` — the description
  and the tags are told apart;
* `HintCheck.DocBlock.exists_dropBlankEdges`, `HintCheck.DocBlock.dropBlankEdges_append` — blank
  lines at the edges do not matter;
* `HintCheck.DocBlock.read_commentText` — a written comment is read, with one spelling of null;
* `HintCheck.DocBlock.retells_read_commentText` — **a written comment is read back**;
* `HintCheck.DocBlock.not_retells_of_starred_name` — unless a name ends it.
-/

import HintCheck.Proofs.Doc.TagText
import HintCheck.Proofs.Text.Lines
import Mathlib.Data.List.Basic

set_option relaxedAutoImplicit false
set_option autoImplicit false

namespace HintCheck

namespace DocBlock

open Text Ty

/-! ### Writing a comment -/

/-- A line of a description: it neither looks like a tag nor ends the comment. -/
structure IsProse (l : Text) : Prop where
  newline : '\n' ∉ l
  trimEnd_eq : trimEnd l = l
  no_tag : ¬"@".toList <+: trim l
  no_inline_tag : ¬"\x7b@".toList <+: trim l
  open_end : StaysOpen l

instance (l : Text) : Decidable (IsProse l) :=
  decidable_of_iff ('\n' ∉ l ∧ trimEnd l = l ∧ ¬"@".toList <+: trim l ∧ ¬"\x7b@".toList <+: trim l ∧
      StaysOpen l)
    ⟨fun ⟨hnewline, htrim, htag, hinline, hopen⟩ => ⟨hnewline, htrim, htag, hinline, hopen⟩,
      fun h => ⟨h.newline, h.trimEnd_eq, h.no_tag, h.no_inline_tag, h.open_end⟩⟩

/-- A line of a description with the beginning of the line. -/
def proseLine (l : Text) : Text := if l.isEmpty then " *".toList else " * ".toList ++ l

/-- The line of a tag with the beginning of the line. -/
def tagLine (t : DocTag) : Text := " * ".toList ++ t.text

/-- The text of a comment with the lines of a description and tags. -/
def commentText (ls : List Text) (ts : List DocTag) : Text :=
  join "\n" ("/**".toList :: (ls.map proseLine ++ ts.map tagLine) ++ [" */".toList])

/-- A comment tells lines again, less the blank ones at the edges, and tags, each with the line it
stands on, when the first of all these lines has a given number. -/
structure Retells (block : DocBlock) (ls : List Text) (ts : List DocTag) (line : Nat) :
    Prop where
  /-- No line between the edges is lost. -/
  description : ∃ before after, ls.zipIdx line = before ++ block.description ++ after ∧
    (∀ l ∈ before, isBlankLine l = true) ∧ ∀ l ∈ after, isBlankLine l = true
  first : ∀ l ∈ block.description.head?, isBlankLine l = false
  last : ∀ l ∈ block.description.getLast?, isBlankLine l = false
  tags : block.tags = (ts.zipIdx (line + ls.length)).map fun t => t.1.atLine t.2

/-! ### Lines -/

theorem dropSuffix?_of_staysOpen {l : Text} (h : StaysOpen l) :
    dropSuffix? "*/".toList l = none := by
  rw [dropSuffix?, Option.eq_none_iff_forall_ne_some]
  intro rest hrest
  exact h ⟨rest, List.append_eq_of_isSuffixOf?_eq_some hrest⟩

/-- The delimiters in front of a line are removed again. -/
theorem cleanLine_append {l : Text} (hne : l ≠ []) (htrim : trimEnd l = l) (hopen : StaysOpen l) :
    cleanLine (" * ".toList ++ l) = l := by
  have hlast := List.getLast?_eq_some_getLast hne
  have hblank := isBlank_of_trimEnd_eq htrim hlast
  have hend : trimEnd (" * ".toList ++ l) = " * ".toList ++ l :=
    trimEnd_of_last (by rw [List.getLast?_append, hlast]; rfl) hblank
  have hsuffix : dropSuffix? "*/".toList (" * ".toList ++ l) = none :=
    dropSuffix?_of_staysOpen (hopen.append_cons (c := ' ') (by decide) (by decide) " *".toList)
  have hstart : trimStart (" * ".toList ++ l) = '*' :: ' ' :: l := by
    have h : trimStart ('*' :: ' ' :: l) = '*' :: ' ' :: l := trimStart_cons (by decide) _
    rw [← h]
    rfl
  have hprefix : dropPrefix? "/**".toList ('*' :: ' ' :: l) = none := rfl
  simp only [cleanLine, hend, hsuffix, Option.getD_none, hstart, hprefix, htrim]

theorem cleanLine_proseLine {l : Text} (h : IsProse l) : cleanLine (proseLine l) = l := by
  cases l with
  | nil => rfl
  | cons c cs => exact cleanLine_append (by simp) h.trimEnd_eq h.open_end

theorem trimEnd_of_trim_eq {s : Text} (h : trim s = s) : trimEnd s = s := by
  cases s with
  | nil => rfl
  | cons c cs =>
      obtain ⟨b, hb, hblank⟩ := (tight_of_trim_eq (by simp) h).last
      exact trimEnd_of_last hb hblank

theorem cleanLine_tagLine {t : DocTag} (h : t.Spellable) (hopen : t.NameStaysOpen) :
    cleanLine (tagLine t) = t.text :=
  cleanLine_append (by simp [DocTag.text]) (trimEnd_of_trim_eq (trim_text h).1)
    (staysOpen_text h hopen)

/-- A line that ends with a line of text is a line. -/
theorem isLine_append {start l : Text} (hstart : '\n' ∉ start) (hne : l ≠ [])
    (htrim : trimEnd l = l) (hnewline : '\n' ∉ l) : IsLine (start ++ l) where
  newline := by simp [hstart, hnewline]
  carriage := by
    have hlast := List.getLast?_eq_some_getLast hne
    have hblank := isBlank_of_trimEnd_eq htrim hlast
    rw [List.getLast?_append, hlast]
    intro h
    rw [Option.some_inj.1 h] at hblank
    exact absurd hblank (by decide)

theorem isLine_proseLine {l : Text} (h : IsProse l) : IsLine (proseLine l) := by
  cases l with
  | nil => exact ⟨by decide, by decide⟩
  | cons c cs => exact isLine_append (by decide) (by simp) h.trimEnd_eq h.newline

theorem isLine_tagLine {t : DocTag} (h : t.Spellable) : IsLine (tagLine t) :=
  isLine_append (by decide) (by simp [DocTag.text]) (trimEnd_of_trim_eq (trim_text h).1)
    (trim_text h).2

/-- What is written as a comment has these lines. -/
theorem lines_commentText {ls : List Text} {ts : List DocTag} (hls : ∀ l ∈ ls, IsProse l)
    (hts : ∀ t ∈ ts, t.Spellable) :
    lines (commentText ls ts) =
      "/**".toList :: (ls.map proseLine ++ ts.map tagLine) ++ [" */".toList] := by
  refine lines_join ?_ (by decide) (by decide)
  rw [List.forall_mem_cons, List.forall_mem_append, List.forall_mem_map, List.forall_mem_map]
  exact ⟨⟨by decide, by decide⟩, fun l hl => isLine_proseLine (hls l hl),
    fun t ht => isLine_tagLine (hts t ht)⟩

/-- The lines of a comment, without the delimiters. -/
theorem cleanLines_commentText {ls : List Text} {ts : List DocTag} (hls : ∀ l ∈ ls, IsProse l)
    (hts : ∀ t ∈ ts, t.Spellable ∧ t.NameStaysOpen) :
    (lines (commentText ls ts)).map cleanLine = [] :: (ls ++ ts.map DocTag.text) ++ [[]] := by
  have hprose : (ls.map proseLine).map cleanLine = ls := by
    rw [List.map_map]
    calc ls.map (cleanLine ∘ proseLine) = ls.map id :=
          List.map_congr_left fun l hl => cleanLine_proseLine (hls l hl)
      _ = ls := List.map_id ls
  have htags : (ts.map tagLine).map cleanLine = ts.map DocTag.text := by
    rw [List.map_map]
    exact List.map_congr_left fun t ht => cleanLine_tagLine (hts t ht).1 (hts t ht).2
  have hfirst : cleanLine "/**".toList = [] := by decide
  have hlast : cleanLine " */".toList = [] := by decide
  rw [lines_commentText hls fun t ht => (hts t ht).1]
  simp only [List.map_append, List.map_cons, List.map_nil, hprose, htags, hfirst, hlast]

/-! ### Grouping -/

/-- Lines that begin no tag belong to the description. -/
theorem groupByTag_append {as : List (Text × Nat)} (h : ∀ l ∈ as, beginsTag l.1 = false)
    (bs : List (Text × Nat)) :
    groupByTag (as ++ bs) = (as ++ (groupByTag bs).1, (groupByTag bs).2) := by
  induction as with
  | nil => rfl
  | cons l ls ih =>
      have ih := ih fun k hk => h k (List.mem_cons_of_mem _ hk)
      rw [List.cons_append, groupByTag, ih, if_neg (by simp [h l List.mem_cons_self])]
      rfl

theorem beginsTag_of_blank {l : Text} (h : trim l = []) : beginsTag l = false := by
  cases hs : trimStart l with
  | nil => rw [beginsTag, hs]
  | cons c cs =>
      rw [trim, hs, trimEnd_cons (isBlank_of_trimStart_eq_cons hs)] at h
      cases h

/-- A line of a description does not begin a tag. -/
theorem beginsTag_of_isProse {l : Text} (h : IsProse l) : beginsTag l = false := by
  have hat : isBlank '@' = false := by decide
  have hbrace : isBlank '\x7b' = false := by decide
  unfold beginsTag
  split
  · next rest heq =>
    refine absurd ?_ h.no_tag
    rw [trim, heq, trimEnd_cons hat]
    exact ⟨_, rfl⟩
  · next rest heq =>
    refine absurd ?_ h.no_inline_tag
    rw [trim, heq, trimEnd_cons hbrace, trimEnd_cons hat]
    exact ⟨_, rfl⟩
  · rfl

/-- The lines of tags, with blank lines behind them, are read as the tags. -/
theorem groupByTag_tags {ts : List DocTag} (h : ∀ t ∈ ts, t.Spellable) (n : Nat)
    {rest : List (Text × Nat)} (hrest : ∀ l ∈ rest, isBlankLine l = true) :
    (∀ l ∈ (groupByTag ((ts.map DocTag.text).zipIdx n ++ rest)).1, isBlankLine l = true) ∧
      (groupByTag ((ts.map DocTag.text).zipIdx n ++ rest)).2.mapM readTag =
        .ok ((ts.zipIdx n).map fun t => (t.1.mapTy denull).atLine t.2) := by
  induction ts generalizing n with
  | nil =>
      have hno : ∀ l ∈ rest, beginsTag l.1 = false := by
        intro l hl
        have hblank : trim l.1 = [] := by simpa [isBlankLine] using hrest l hl
        exact beginsTag_of_blank hblank
      have hgroup := groupByTag_append hno []
      rw [List.append_nil] at hgroup
      simp only [List.map_nil, List.zipIdx_nil, List.nil_append, hgroup]
      exact ⟨by simpa [groupByTag] using hrest, rfl⟩
  | cons t ts ih =>
      obtain ⟨hblank, htags⟩ := ih (fun s hs => h s (List.mem_cons_of_mem _ hs)) (n + 1)
      -- the lines that continue the first tag are those in front of the next one
      have hgroup : groupByTag (((t :: ts).map DocTag.text).zipIdx n ++ rest) =
          ([], ((t.text, n), (groupByTag ((ts.map DocTag.text).zipIdx (n + 1) ++ rest)).1) ::
            (groupByTag ((ts.map DocTag.text).zipIdx (n + 1) ++ rest)).2) := by
        rw [List.map_cons, List.zipIdx_cons, List.cons_append, groupByTag,
          if_pos (beginsTag_text t)]
      have hread := readTag_text (h t List.mem_cons_self) n hblank
      rw [hgroup]
      refine ⟨by simp, ?_⟩
      rw [List.mapM_cons, hread, htags]
      rfl

/-! ### Blank lines at the edges -/

/-- What is left of lines when the blank ones at the edges are dropped. -/
theorem exists_dropBlankEdges (ls : List (Text × Nat)) :
    ∃ before after, ls = before ++ dropBlankEdges ls ++ after ∧
      (∀ l ∈ before, isBlankLine l = true) ∧ ∀ l ∈ after, isBlankLine l = true := by
  have htake : ∀ ks : List (Text × Nat), ∀ l ∈ ks.takeWhile isBlankLine, isBlankLine l = true :=
    fun ks l hl => List.all_eq_true.1 List.all_takeWhile l hl
  refine ⟨ls.takeWhile isBlankLine,
    ((ls.dropWhile isBlankLine).reverse.takeWhile isBlankLine).reverse, ?_, htake ls, ?_⟩
  · rw [dropBlankEdges, List.append_assoc, ← List.reverse_append, List.takeWhile_append_dropWhile,
      List.reverse_reverse, List.takeWhile_append_dropWhile]
  · intro l hl
    exact htake _ l (List.mem_reverse.1 hl)

theorem isBlankLine_of_mem_head?_dropWhile (ls : List (Text × Nat)) :
    ∀ l ∈ (ls.dropWhile isBlankLine).head?, isBlankLine l = false := by
  intro l hl
  have h := List.head?_dropWhile_not isBlankLine ls
  rw [Option.mem_def.1 hl] at h
  exact h

/-- What is left begins and ends with lines that are not blank. -/
theorem isBlankLine_of_dropBlankEdges (ls : List (Text × Nat)) :
    (∀ l ∈ (dropBlankEdges ls).head?, isBlankLine l = false) ∧
      ∀ l ∈ (dropBlankEdges ls).getLast?, isBlankLine l = false := by
  constructor
  · intro l hl
    have hprefix : dropBlankEdges ls <+: ls.dropWhile isBlankLine := by
      have h := List.dropWhile_suffix isBlankLine (l := (ls.dropWhile isBlankLine).reverse)
      rw [← List.reverse_prefix, List.reverse_reverse] at h
      exact h
    obtain ⟨rest, hrest⟩ := hprefix
    refine isBlankLine_of_mem_head?_dropWhile ls l ?_
    rw [← hrest, List.head?_append, Option.mem_def.1 hl]
    rfl
  · intro l hl
    rw [dropBlankEdges, List.getLast?_reverse] at hl
    exact isBlankLine_of_mem_head?_dropWhile _ l hl

/-- Blank lines at the edges do not matter. -/
theorem dropBlankEdges_append {before after : List (Text × Nat)}
    (hbefore : ∀ l ∈ before, isBlankLine l = true) (hafter : ∀ l ∈ after, isBlankLine l = true)
    (ls : List (Text × Nat)) : dropBlankEdges (before ++ ls ++ after) = dropBlankEdges ls := by
  have hfront : (before ++ ls ++ after).dropWhile isBlankLine =
      (ls ++ after).dropWhile isBlankLine := by
    rw [List.append_assoc, List.dropWhile_append_of_pos hbefore]
  rw [dropBlankEdges, dropBlankEdges, hfront, List.dropWhile_append]
  split
  · next h =>
    have hnone : after.dropWhile isBlankLine = [] := by
      rw [← List.append_nil after, List.dropWhile_append_of_pos hafter, List.dropWhile_nil]
    rw [List.isEmpty_iff.1 h, hnone]
  · rw [List.reverse_append, List.dropWhile_append_of_pos]
    exact fun l hl => hafter l (List.mem_reverse.1 hl)

/-! ### The comment -/

/-- A written comment is read, with one spelling of null. -/
theorem read_commentText (ls : List Text) (ts : List DocTag) (n : Nat)
    (hls : ∀ l ∈ ls, IsProse l) (hts : ∀ t ∈ ts, t.Spellable ∧ t.NameStaysOpen) :
    read (commentText ls ts) n = .ok
      { description := dropBlankEdges (ls.zipIdx (n + 1))
        tags := (ts.zipIdx (n + 1 + ls.length)).map fun t => (t.1.mapTy denull).atLine t.2 } := by
  have hblank : ∀ m, ∀ l ∈ [(([] : Text), m)], isBlankLine l = true := by
    intro m l hl
    rw [List.mem_singleton.1 hl]
    rfl
  -- the first line and the last one, with nothing but delimiters, are blank
  obtain ⟨m, hlines⟩ : ∃ m, ([] :: (ls ++ ts.map DocTag.text) ++ [[]]).zipIdx n =
      [([], n)] ++ ls.zipIdx (n + 1) ++
        ((ts.map DocTag.text).zipIdx (n + 1 + ls.length) ++ [([], m)]) :=
    ⟨n + 1 + ls.length + ts.length, by simp [List.zipIdx_append, Nat.add_assoc]⟩
  obtain ⟨hrest, htags⟩ :=
    groupByTag_tags (fun t ht => (hts t ht).1) (n + 1 + ls.length) (hblank m)
  have hprose : ∀ l ∈ [([], n)] ++ ls.zipIdx (n + 1), beginsTag l.1 = false := by
    rw [List.forall_mem_append]
    refine ⟨fun l hl => ?_, fun l hl => ?_⟩
    · rw [List.mem_singleton.1 hl]
      exact beginsTag_of_blank rfl
    · exact beginsTag_of_isProse (hls _ (List.fst_mem_of_mem_zipIdx hl))
  rw [read, cleanLines_commentText hls hts, hlines, groupByTag_append hprose]
  simp only [htags, dropBlankEdges_append (hblank n) hrest]
  rfl

/-- **A written comment is read back**, when its types have no `?T`: the description, less blank
lines at the edges, and every tag, each on its line. -/
theorem retells_read_commentText (ls : List Text) (ts : List DocTag) (n : Nat)
    (hls : ∀ l ∈ ls, IsProse l)
    (hts : ∀ t ∈ ts, t.Spellable ∧ (∀ ty ∈ t.ty?, OptionalFree ty) ∧ t.NameStaysOpen) :
    ∃ block, read (commentText ls ts) n = .ok block ∧ block.Retells ls ts (n + 1) := by
  refine ⟨_, read_commentText ls ts n hls fun t ht => ⟨(hts t ht).1, (hts t ht).2.2⟩, ?_⟩
  obtain ⟨hfirst, hlast⟩ := isBlankLine_of_dropBlankEdges (ls.zipIdx (n + 1))
  refine ⟨exists_dropBlankEdges _, hfirst, hlast, List.map_congr_left fun t ht => ?_⟩
  obtain ⟨hspell, hfree, _⟩ := hts _ (List.fst_mem_of_mem_zipIdx ht)
  rw [DocTag.mapTy_of_optionalFree hspell hfree]

/-- The description of a comment, with a blank line in it and one behind it. -/
def letterLines : List Text := ["Sends a letter.", "", "  Twice.", ""].map String.toList

/-- The tags of a comment: a parameter with words, a result without a type, a variable without a
name, and a tag without content. -/
def letterTags : List DocTag :=
  [.param ⟨0, .generic "Map".toList [.atom .string, .named "Item".toList]⟩ "to".toList
      (some "the readers".toList),
    .result ⟨0, .undefined⟩ none,
    .var ⟨0, .union [.atom .int, .atom .null]⟩ none (some "not $a".toList),
    .other 0 "deprecated".toList none]

/-- The comment of these lines and tags, read back from line 7 on. -/
theorem retells_read_commentText_of_letter :
    letterLines.map proseLine ++ letterTags.map tagLine =
      [" * Sends a letter.", " *", " *   Twice.", " *",
        " * @param Map<string, Item> $to the readers", " * @return", " * @var int|null not $a",
        " * @deprecated"].map String.toList ∧
    ∃ block, read (commentText letterLines letterTags) 7 = .ok block ∧
      block.Retells letterLines letterTags 8 := by
  have hmap : DocTag.IsTagType (.generic "Map".toList [.atom .string, .named "Item".toList]) ∧
      OptionalFree (.generic "Map".toList [.atom .string, .named "Item".toList]) := by
    have hparams : ∀ p ∈ [atom .string, named "Item".toList], PlainNames p ∧ OptionalFree p := by
      simpa using ⟨⟨.atom .string, .atom .string⟩, .named ⟨by decide, by decide +kernel⟩, .named _⟩
    exact ⟨⟨fun _ => by simp [Ty.Normal, NormalParams],
      .generic ⟨by decide, by decide +kernel⟩ (by simp) fun p hp => (hparams p hp).1⟩,
      .generic _ fun p hp => (hparams p hp).2⟩
  have hunion : DocTag.IsTagType (.union [.atom .int, .atom .null]) ∧
      OptionalFree (.union [.atom .int, .atom .null]) := by
    have hmembers : ∀ m ∈ [atom .int, atom .null], PlainNames m ∧ OptionalFree m := by
      simpa using ⟨⟨.atom .int, .atom .int⟩, .atom .null, .atom .null⟩
    exact ⟨⟨fun _ => by simp [Ty.Normal, NormalAll, IsMember, same],
      .union fun m hm => (hmembers m hm).1⟩, .union fun m hm => (hmembers m hm).2⟩
  have habsent : DocTag.IsTagType .undefined := ⟨fun h => Bool.noConfusion h, .undefined⟩
  have hreaders : DocTag.IsSentence "the readers".toList := by decide
  have hnot : DocTag.IsSentence "not $a".toList := by decide
  have hdeprecated : DocTag.IsTagName "deprecated".toList := by decide +kernel
  refine ⟨by decide +kernel, retells_read_commentText letterLines letterTags 7 (by decide) ?_⟩
  simp only [letterTags, List.forall_mem_cons]
  refine ⟨⟨?_, ?_, ?_⟩, ⟨?_, ?_, ?_⟩, ⟨?_, ?_, ?_⟩, ⟨?_, ?_, ?_⟩, by simp⟩
  · exact .param hmap.1 (by decide) (by simpa using hreaders)
  · simpa [DocTag.ty?] using hmap.2
  · simp [DocTag.NameStaysOpen, DocTag.description?]
  · exact .result habsent (by simp) (by simp)
  · simpa [DocTag.ty?] using OptionalFree.undefined
  · simp [DocTag.NameStaysOpen, DocTag.target?]
  · exact .unnamed hunion.1 (by simpa using hnot) (by simp [isDefined]) (by simp; decide)
  · simpa [DocTag.ty?] using hunion.2
  · simp [DocTag.NameStaysOpen, DocTag.target?]
  · exact .other hdeprecated (by simp)
  · simp [DocTag.ty?]
  · simp [DocTag.NameStaysOpen, DocTag.target?]

/-- A tag whose variable has a name that ends the comment. -/
def starredTag : DocTag := .param ⟨0, .atom .int⟩ "a*/".toList none

/-- The name of a variable that ends its line may not end the comment: it would be cut off. -/
theorem not_retells_of_starred_name :
    ¬∀ (ls : List Text) (ts : List DocTag) (n : Nat), (∀ l ∈ ls, IsProse l) →
      (∀ t ∈ ts, t.Spellable ∧ ∀ ty ∈ t.ty?, OptionalFree ty) →
      ∃ block, read (commentText ls ts) n = .ok block ∧ block.Retells ls ts (n + 1) := by
  intro h
  let cutTag : DocTag := .param ⟨0, .atom .int⟩ "a".toList none
  have htype : DocTag.IsTagType (.atom .int) := ⟨fun _ => trivial, .atom .int⟩
  have hspell : starredTag.Spellable := .param htype (by decide) (by simp)
  have hcut : cutTag.Spellable := .param htype (by decide) (by simp)
  have hopen : cutTag.NameStaysOpen := by
    intro _ name hname
    cases hname
    decide
  -- without its delimiters, the line is the one of the tag with the end of the name cut off
  have hlines : (lines (commentText [] [starredTag])).map cleanLine =
      (lines (commentText [] [cutTag])).map cleanLine := by
    have hline : cleanLine (tagLine starredTag) = cleanLine (tagLine cutTag) := by decide
    rw [lines_commentText (by simp) (by simpa using hspell),
      lines_commentText (by simp) (by simpa using hcut)]
    simp [hline]
  have hsame : read (commentText [] [starredTag]) 1 = read (commentText [] [cutTag]) 1 := by
    rw [read, read, hlines]
  have hread := read_commentText [] [cutTag] 1 (by simp) (by simpa using ⟨hcut, hopen⟩)
  obtain ⟨block, hblock, hretells⟩ := h [] [starredTag] 1 (by simp)
    (by simpa using ⟨hspell, fun ty hty => by cases hty; exact .atom .int⟩)
  rw [hsame, hread] at hblock
  cases hblock
  have htags := hretells.tags
  simp [cutTag, starredTag, DocTag.atLine, DocTag.mapTy] at htags

end DocBlock

end HintCheck
