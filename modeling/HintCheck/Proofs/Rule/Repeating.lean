/-
**Comments that repeat a signature.**

For a function whose types leave nothing to say, a comment can be made up from the signature alone:
a tag for each parameter and one for the result, each with the declared type as documentation spells
it.  Such a comment, written and read, is reported as needless and nothing else is found; and
without the comment nothing at all is found at the function.

Main definitions:

* `HintCheck.Param.IsExplicit` — the parameters that leave nothing to say;
* `HintCheck.Signature.repeatingTags` — the tags that repeat a signature;
* `HintCheck.DocBlock.Repeats` — the comments that they are read as.

Main results:

* `HintCheck.Ty.IsExplicit.declText_denull` — a repeated type is recognized by its spelling;
* `HintCheck.DocBlock.exists_repeats` — a comment of these tags is read;
* `HintCheck.Routine.typeFindings_of_repeats`, `HintCheck.Routine.typeFindings_of_undocumented` —
  nothing is found at the types;
* `HintCheck.Routine.isNeedless_of_repeats` — the comment is needless;
* `HintCheck.run_repeating` — **a comment that repeats the signature is the one finding.**
-/

import HintCheck.Rule.Method
import HintCheck.Proofs.Doc.RoundTrip
import HintCheck.Proofs.Inspect.Silent
import Mathlib.Data.List.Nodup

set_option relaxedAutoImplicit false
set_option autoImplicit false

namespace HintCheck

/-! ### Explicit signatures -/

/-- A parameter that leaves nothing to say: of an explicit type, without null as its default, and
with a name that a tag can end with.  Where it declares a property, that has no comment. -/
structure Param.IsExplicit (p : Param) : Prop where
  ty : p.ty.IsExplicit
  name : DocTag.IsVariableName p.name
  open_end : Text.StaysOpen p.name
  default : p.default ≠ some (.atom .null)
  comment : p.promoted = true → p.doc = none

/-- A signature with explicit types and different names of parameters. -/
structure Signature.IsExplicit (s : Signature) : Prop where
  params : ∀ p ∈ s.params, p.IsExplicit
  names : (s.params.map (·.name)).Nodup
  result : s.result.IsExplicit

/-- The tag of a parameter that repeats its type.  The line is that of no tag yet. -/
def Param.repeatingTag (p : Param) : DocTag := .param ⟨0, p.ty⟩ p.name none

/-- The tags that repeat a signature. -/
def Signature.repeatingTags (s : Signature) : List DocTag :=
  s.params.map Param.repeatingTag ++ [.result ⟨0, s.result⟩ none]

/-- With one spelling of null, an explicit type is spelled in a declaration as a tag that repeats
it has to be. -/
theorem Ty.IsExplicit.declText_denull {t : Ty} (h : t.IsExplicit) :
    (Ty.denull t).declText = Routine.repeated t := by
  rcases h.denull_cases with ⟨heq, _, hoptional⟩ | ⟨u, rfl, hflat, heq⟩
  · rw [heq, Routine.repeated]
    exact fun u => hoptional u
  · rw [heq, Routine.repeated, Ty.declText, Ty.declTexts_eq, Ty.docText]
    simp [Text.join, List.intercalate_cons_cons, Ty.declText_of_isMember hflat.isMember,
      Ty.declText, Ty.docText]
    rfl

/-! ### Reading the comment -/

/-- The comments with the tags that repeat a signature, each on some line and with one spelling of
null. -/
structure DocBlock.Repeats (block : DocBlock) (s : Signature) : Prop where
  description : block.description = []
  sound : ∀ t ∈ block.tags, ∃ r ∈ s.repeatingTags, ∃ line, t = (r.mapTy Ty.denull).atLine line
  complete : ∀ r ∈ s.repeatingTags, ∃ line, (r.mapTy Ty.denull).atLine line ∈ block.tags

theorem Signature.IsExplicit.spellable {s : Signature} (h : s.IsExplicit) :
    ∀ t ∈ s.repeatingTags, t.Spellable ∧ t.NameStaysOpen := by
  intro t ht
  rcases List.mem_append.1 ht with ht | ht
  · obtain ⟨p, hp, rfl⟩ := List.mem_map.1 ht
    have hparam := h.params p hp
    refine ⟨.param ⟨hparam.ty.normal.normalOrAbsent, hparam.ty.names⟩ hparam.name (by simp), ?_⟩
    intro _ name hname
    cases hname
    exact hparam.open_end
  · rw [List.mem_singleton.1 ht]
    refine ⟨.result ⟨h.result.normal.normalOrAbsent, h.result.names⟩ (by simp) (by simp), ?_⟩
    intro _ name hname
    cases hname

/-- A comment of the tags that repeat a signature, in any order, is read. -/
theorem DocBlock.exists_repeats {s : Signature} (h : s.IsExplicit) {ts : List DocTag}
    (hts : ts.Perm s.repeatingTags) (n : Nat) :
    ∃ block, read (commentText [] ts) n = .ok block ∧ block.Repeats s := by
  have hspell : ∀ t ∈ ts, t.Spellable ∧ t.NameStaysOpen := fun t ht =>
    h.spellable t (hts.mem_iff.1 ht)
  refine ⟨_, read_commentText [] ts n (by simp) hspell, rfl, fun t ht => ?_, fun r hr => ?_⟩
  · obtain ⟨⟨r, line⟩, hr, rfl⟩ := List.mem_map.1 ht
    exact ⟨r, hts.mem_iff.1 (List.fst_mem_of_mem_zipIdx hr), line, rfl⟩
  · obtain ⟨i, hi, rfl⟩ := List.getElem_of_mem (hts.mem_iff.2 hr)
    refine ⟨n + 1 + i, List.mem_map.2 ⟨(ts[i], n + 1 + i), ?_, rfl⟩⟩
    exact List.mk_mem_zipIdx_iff_le_and_getElem?_sub.2 ⟨by simp, by simp⟩

/-! ### Looking tags up -/

/-- What is found first has every property that all that can be found have. -/
theorem exists_findSome?_eq_some {α β : Type} {f : α → Option β} {as : List α} {P : β → Prop}
    (hall : ∀ a ∈ as, ∀ b, f a = some b → P b) (hex : ∃ a ∈ as, (f a).isSome = true) :
    ∃ b, as.findSome? f = some b ∧ P b := by
  cases h : as.findSome? f with
  | none =>
      obtain ⟨a, ha, hsome⟩ := hex
      rw [List.findSome?_eq_none_iff.1 h a ha] at hsome
      cases hsome
  | some b =>
      obtain ⟨a, ha, hb⟩ := List.exists_of_findSome?_eq_some h
      exact ⟨b, rfl, hall a ha b hb⟩

namespace DocBlock.Repeats

variable {block : DocBlock} {s : Signature}

/-- The tags of a comment that repeats a signature. -/
theorem cases (h : block.Repeats s) {t : DocTag} (ht : t ∈ block.tags) :
    (∃ p ∈ s.params, ∃ line, t = .param ⟨line, Ty.denull p.ty⟩ p.name none) ∨
      ∃ line, t = .result ⟨line, Ty.denull s.result⟩ none := by
  obtain ⟨r, hr, line, rfl⟩ := h.sound t ht
  rcases List.mem_append.1 hr with hr | hr
  · obtain ⟨p, hp, rfl⟩ := List.mem_map.1 hr
    exact Or.inl ⟨p, hp, line, rfl⟩
  · rw [List.mem_singleton.1 hr]
    exact Or.inr ⟨line, rfl⟩

/-- The tag of a parameter in a comment that repeats its signature. -/
theorem paramTag?_eq (h : block.Repeats s) (hs : s.IsExplicit) {p : Param} (hp : p ∈ s.params) :
    ∃ line, Doc.paramTag? (some block) p.name = some (⟨line, Ty.denull p.ty⟩, none) := by
  have hall : ∀ t ∈ block.tags, ∀ b, Doc.paramTyping? p.name t = some b →
      ∃ line, b = (⟨line, Ty.denull p.ty⟩, none) := by
    intro t ht b hb
    rcases h.cases ht with ⟨q, hq, line, rfl⟩ | ⟨line, rfl⟩
    · simp only [Doc.paramTyping?] at hb
      split at hb
      · next hname =>
        -- the names are different, so this is the tag of the parameter itself
        obtain rfl : q = p := List.inj_on_of_nodup_map hs.names hq hp hname
        exact ⟨line, (Option.some_inj.1 hb).symm⟩
      · cases hb
    · cases hb
  obtain ⟨line, htag⟩ := h.complete p.repeatingTag
    (List.mem_append_left _ (List.mem_map_of_mem hp))
  obtain ⟨b, hb, line, rfl⟩ := exists_findSome?_eq_some hall
    ⟨_, htag, by simp [Param.repeatingTag, DocTag.mapTy, DocTag.atLine, Doc.paramTyping?]⟩
  exact ⟨line, hb⟩

/-- The tag of the result in a comment that repeats its signature. -/
theorem resultTag?_eq (h : block.Repeats s) :
    ∃ line, Doc.resultTag? (some block) = some (⟨line, Ty.denull s.result⟩, none) := by
  have hall : ∀ t ∈ block.tags, ∀ b, Doc.resultTyping? t = some b →
      ∃ line, b = (⟨line, Ty.denull s.result⟩, none) := by
    intro t ht b hb
    rcases h.cases ht with ⟨q, hq, line, rfl⟩ | ⟨line, rfl⟩
    · cases hb
    · exact ⟨line, (Option.some_inj.1 hb).symm⟩
  obtain ⟨line, htag⟩ := h.complete (.result ⟨0, s.result⟩ none)
    (List.mem_append_right _ List.mem_cons_self)
  obtain ⟨b, hb, line, rfl⟩ := exists_findSome?_eq_some hall
    ⟨_, htag, by simp [DocTag.mapTy, DocTag.atLine, Doc.resultTyping?]⟩
  exact ⟨line, hb⟩

end DocBlock.Repeats

/-! ### What is found at a routine -/

namespace Routine

/-- Where no check finds anything at a subject, an inspection finds nothing. -/
theorem inspect_eq_nil {sub : Subject} (h : ∀ c : Check, c.findings sub = []) (m : MethodSettings) :
    inspect m sub = [] := by
  rw [inspect, Inspection.foldl_run_eq_self (i := { subject := sub }) h]
  rfl

theorem paramType_eq {p : Param} (h : p.IsExplicit) : Subject.paramType p = p.ty := by
  unfold Subject.paramType
  split
  · next hnull => exact absurd hnull h.default
  · rfl

variable {r : Routine} {block : DocBlock}

/-- Nothing is found at a routine without an owner when no check finds anything at its parameters
and its result, and its comment has no lines of its own. -/
theorem typeFindings_eq_nil (howner : r.owner = none) (hlines : r.doc.description = [])
    (hparams : ∀ p ∈ r.signature.params, ∀ c : Check, c.findings (r.paramSubject p) = [])
    (hresult : ∀ c : Check, c.findings r.resultSubject = []) (m : MethodSettings) :
    r.typeFindings m = [] := by
  have hinspect : (r.signature.params.flatMap fun p => inspect m (r.paramSubject p)) = [] :=
    List.flatMap_eq_nil_iff.2 fun p hp => inspect_eq_nil (hparams p hp) m
  have hneedless : r.needlessLines = [] := by rw [needlessLines, hlines]; rfl
  have hgetter : r.getterFindings m = [] := by rw [getterFindings, nullableGetter?, howner]; rfl
  simp [typeFindings, hinspect, hneedless, hgetter, inspect_eq_nil hresult m]

/-- Nothing is found at the types of an explicit signature without a comment. -/
theorem typeFindings_of_undocumented (hs : r.signature.IsExplicit) (howner : r.owner = none)
    (hdoc : r.doc = none) (m : MethodSettings) : r.typeFindings m = [] := by
  refine typeFindings_eq_nil howner (by rw [hdoc]; rfl) (fun p hp => ?_) ?_ m
  · have hparam := hs.params p hp
    have hsubject : r.paramSubject p = { Subject.ofParam p with documented := false } := by
      have htag : Doc.paramTag? none p.name = none := rfl
      simp only [paramSubject, hdoc, htag]
      split
      · next typing _ hvar =>
        have hnot : ¬p.promoted = true := by
          intro hpromoted
          rw [hparam.comment hpromoted] at hvar
          cases hvar
        rw [if_neg hnot]
        rfl
      · rfl
    have hdecl : (r.paramSubject p).decl = p.ty := by
      rw [hsubject]
      exact paramType_eq hparam
    refine Check.findings_of_untagged (Or.inl ?_) (hdecl.symm ▸ hparam.ty) ?_
    · rw [hsubject]
      rfl
    · rw [hsubject]
      rfl
  · have hsubject : r.resultSubject =
        { Subject.ofResult r.signature with documented := false } := by
      rw [resultSubject, hdoc]
      rfl
    rw [hsubject]
    exact Check.findings_of_untagged (Or.inr rfl) hs.result rfl

/-- Nothing is found at the types of an explicit signature with a comment that repeats it. -/
theorem typeFindings_of_repeats (hs : r.signature.IsExplicit) (howner : r.owner = none)
    (hdoc : r.doc = some block) (h : block.Repeats r.signature) (m : MethodSettings) :
    r.typeFindings m = [] := by
  refine typeFindings_eq_nil howner (by rw [hdoc]; exact h.description) (fun p hp => ?_) ?_ m
  · have hparam := hs.params p hp
    obtain ⟨line, htag⟩ := h.paramTag?_eq hs hp
    have hsubject : r.paramSubject p =
        { Subject.ofParam p with documented := true, tag := some ⟨line, Ty.denull p.ty⟩ } := by
      simp only [paramSubject, hdoc, htag]
      rfl
    have hdecl : (r.paramSubject p).decl = p.ty := by
      rw [hsubject]
      exact paramType_eq hparam
    refine Check.findings_of_repeated line (Or.inl ?_) (hdecl.symm ▸ hparam.ty) ?_
    · rw [hsubject]
      rfl
    · rw [hdecl, hsubject]
  · obtain ⟨line, htag⟩ := h.resultTag?_eq
    have hsubject : r.resultSubject =
        { Subject.ofResult r.signature with
          documented := true, tag := some ⟨line, Ty.denull r.signature.result⟩ } := by
      simp only [resultSubject, hdoc, htag]
      rfl
    rw [hsubject]
    exact Check.findings_of_repeated line (Or.inr rfl) hs.result rfl

/-- A comment that repeats the signature is needless. -/
theorem isNeedless_of_repeats (hs : r.signature.IsExplicit) (hdoc : r.doc = some block)
    (h : block.Repeats r.signature) : r.isNeedless = true := by
  have hrepeats : ∀ {t : Ty}, t.IsExplicit → ∀ line,
      repeats (some (⟨line, Ty.denull t⟩, none)) t = true :=
    fun ht line => beq_iff_eq.2 ht.declText_denull
  have hdescription : Doc.hasDescription (some block) = false := by
    rw [Doc.hasDescription, Doc.description, h.description]
    rfl
  have hnames : ∀ t ∈ block.tags,
      (t.name == "param".toList || t.name == "return".toList) = true := by
    intro t ht
    rcases h.cases ht with ⟨p, _, line, rfl⟩ | ⟨line, rfl⟩
    · exact Bool.or_eq_true_iff.2 (Or.inl (beq_self_eq_true _))
    · exact Bool.or_eq_true_iff.2 (Or.inr (beq_self_eq_true _))
  have hparams : ∀ p ∈ r.signature.params,
      repeats (Doc.paramTag? (some block) p.name) p.ty = true := by
    intro p hp
    obtain ⟨line, htag⟩ := h.paramTag?_eq hs hp
    rw [htag]
    exact hrepeats (hs.params p hp).ty line
  obtain ⟨line, hresult⟩ := h.resultTag?_eq
  rw [isNeedless, hdoc, hdescription, hresult, hrepeats hs.result line]
  simp only [Option.isSome_some, Bool.not_false, Bool.true_and, Bool.and_true, Bool.or_true,
    Bool.and_eq_true, List.all_eq_true]
  exact ⟨hnames, hparams⟩

/-- Where nothing is found at the types of a routine without an owner, its check reports at most
that the comment is needless. -/
theorem check_of_typeFindings {m : MethodSettings} (howner : r.owner = none)
    (htags : m.invalidTags = []) (htypes : r.typeFindings m = []) (useIndex : Bool) (x : ClassIndex)
    (report : Report) :
    r.check m useIndex x report =
      if r.isNeedless then report.add (r.line, "Useless PHPDoc".toList) else report := by
  have hneedless : needlessTags r.doc m.invalidTags = [] := by simp [needlessTags, htags]
  have hoverride : r.isOverride x = false := by rw [isOverride, howner]; rfl
  have hbody : r.bodyFindings m useIndex x = [] := by
    rw [bodyFindings, htypes, hoverride, Bool.and_false]
    split
    · rfl
    · split
      · rfl
      · rfl
  rw [check, hneedless, hbody]
  simp only [Report.addAll_nil, true_and]

end Routine

/-! ### What the rule reports -/

/-- A file with one function and nothing else, with no silencing comments. -/
def SourceFile.withFunction (file : SourceFile) (f : FunctionDecl) : SourceFile :=
  { file with functions := [f], classes := [], suppressions := .none }

/-- **A comment that repeats the signature is the one finding** at a function whose types leave
nothing to say.  Without a comment nothing is found; and the comment that has a tag for each
parameter and one for the result, in any order, is read and reported as needless. -/
theorem run_repeating (file : SourceFile) (f : FunctionDecl) (hs : f.signature.IsExplicit)
    (ts : List DocTag) (hts : ts.Perm f.signature.repeatingTags) (n : Nat) (x : ClassIndex) :
    (Rule.method {} false).run (file.withFunction { f with doc := none }) x = [] ∧
    ∃ block, DocBlock.read (DocBlock.commentText [] ts) n = .ok block ∧
      (Rule.method {} false).run (file.withFunction { f with doc := some block }) x =
        [{ file := file.path, line := f.line, severity := .warning
           code := "type_sniff/method".toList, message := "Useless PHPDoc".toList
           snippet := (Report.lineAt? file.lines f.line).map Text.trimEnd }] := by
  have hrun : ∀ doc : Doc, (Rule.method {} false).run (file.withFunction { f with doc }) x =
      ((Routine.ofFunction { f with doc }).check {} false x
        (.start (file.withFunction { f with doc }) "type_sniff/method".toList
          .warning)).diagnostics :=
    fun _ => rfl
  obtain ⟨block, hread, hblock⟩ := DocBlock.exists_repeats hs hts n
  refine ⟨?_, block, hread, ?_⟩
  · have htypes := Routine.typeFindings_of_undocumented
      (r := Routine.ofFunction { f with doc := none }) hs rfl rfl {}
    rw [hrun, Routine.check_of_typeFindings rfl rfl htypes]
    rfl
  · let r := Routine.ofFunction { f with doc := some block }
    have htypes := Routine.typeFindings_of_repeats (r := r) hs rfl rfl hblock {}
    have hneedless := Routine.isNeedless_of_repeats (r := r) hs rfl hblock
    rw [hrun, Routine.check_of_typeFindings rfl rfl htypes, if_pos hneedless]
    rfl

/-- A function of line 5 with a parameter that may be null and one of two alternatives. -/
def greeting : FunctionDecl :=
  let param (name : Text) (ty : Ty) : Param :=
    { line := 5, name, ty, default := none, attributes := [], doc := none, variadic := false
      byRef := false, promoted := false }
  { line := 5
    signature :=
      { line := 5, name := "greet".toList, result := .atom .string, resultLine := 5
        params := [param "a".toList (.optional (.atom .int)),
          param "b".toList (.union [.named "Item".toList, .atom .bool])] }
    doc := none }

/-- A file without declarations. -/
def blankFile : SourceFile :=
  { path := "f.php".toList, source := [], scope := none, imports := [], functions := []
    classes := [], failures := [], suppressions := .none }

/-- The comment of its tags in reverse, which spells `?int` in another way than the function. -/
theorem run_repeating_of_greeting :
    greeting.signature.repeatingTags.reverse.map DocBlock.tagLine =
      [" * @return string", " * @param Item|bool $b", " * @param int|null $a"].map String.toList ∧
    ∃ block, DocBlock.read
        (DocBlock.commentText [] greeting.signature.repeatingTags.reverse) 1 = .ok block ∧
      ((Rule.method {} false).run (blankFile.withFunction { greeting with doc := some block })
        .empty).map (fun d => (d.line, d.message)) = [(5, "Useless PHPDoc".toList)] := by
  have hint : (Ty.optional (.atom .int)).IsExplicit :=
    ⟨by simp [Ty.Normal, Ty.IsOptionable], .optional (.atom .int), by decide⟩
  have hunion : (Ty.union [.named "Item".toList, .atom .bool]).IsExplicit := by
    have hmembers : ∀ m ∈ [Ty.named "Item".toList, .atom .bool], Ty.PlainNames m := by
      simpa using ⟨.named ⟨by decide, by decide +kernel⟩, .atom .bool⟩
    exact ⟨by simp [Ty.Normal, Ty.NormalAll, Ty.IsMember, Ty.same], .union hmembers, by decide⟩
  have hs : greeting.signature.IsExplicit := by
    refine ⟨?_, by decide, ⟨trivial, .atom .string, by decide⟩⟩
    simp only [greeting, List.forall_mem_cons]
    exact ⟨⟨hint, by decide, by decide, by simp, by simp⟩,
      ⟨hunion, by decide, by decide, by simp, by simp⟩, by simp⟩
  obtain ⟨_, block, hread, hrun⟩ :=
    run_repeating blankFile greeting hs _ (List.reverse_perm _) 1 .empty
  exact ⟨by decide +kernel, block, hread, by rw [hrun]; rfl⟩

end HintCheck
