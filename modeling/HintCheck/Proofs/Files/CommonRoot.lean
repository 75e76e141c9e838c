/-
**The deepest common directory.**

The common directory of several paths is found by going through them, and at each path one goes up
from the directory found so far until it leads to the path.  Paths are texts, and going up cuts a
text at its last slash; but what a path means is told by its steps.  This module shows that going up
takes away the last step, that one goes up no further than needed, and that the directory in the end
is the deepest one that leads to all paths.  There is only one such directory, so neither order nor
repetition of the paths matters.

Main definitions:

* `HintCheck.Path.steps` — the steps of a text between slashes;
* `HintCheck.Path.directorySteps` — the steps to the directory that a path stands for;
* `HintCheck.Path.DeepestCommon` — the longest common beginning of several lists of steps;
* `HintCheck.Path.Resolved` — the paths of names between single slashes, from the root on.

Main results:

* `HintCheck.Path.components_of_parent?` — **going up takes away the last step**;
* `HintCheck.Path.deepestCommon_retreat` — one goes up no further than needed;
* `HintCheck.Path.deepestCommon_commonRoot` — the directory is the deepest common one;
* `HintCheck.Path.Resolved.of_parent?`, `HintCheck.Path.Resolved.eq_of_components` — going up from
  a resolved path gives a resolved path, and these are known by their steps;
* `HintCheck.Path.commonRoot_deepest` — **the deepest common directory**, in any order of the paths.
-/

import HintCheck.Files.Path
import HintCheck.Proofs.Text.Segments
import Mathlib.Data.List.Basic

set_option relaxedAutoImplicit false
set_option autoImplicit false

namespace HintCheck

namespace Path

open Text

/-! ### Steps of a text -/

/-- The steps of a text between slashes. -/
def steps (cs : Text) : List Component := (splitOn '/' cs).filterMap ofPiece?

@[simp] theorem steps_nil : steps [] = [] := rfl

@[simp] theorem steps_here : steps ['.'] = [] := rfl

theorem steps_append_slash (a b : Text) : steps (a ++ '/' :: b) = steps a ++ steps b := by
  rw [steps, splitOn_append_cons, List.filterMap_append]
  rfl

/-- A piece without slashes is one step at most. -/
theorem steps_of_not_mem {a : Text} (h : '/' ∉ a) : steps a = (ofPiece? a).toList := by
  rw [steps, splitOn_of_not_mem h]
  cases hstep : ofPiece? a <;> simp [hstep]

theorem components_root_cons (body : Text) : components ('/' :: body) = .root :: steps body := rfl

/-- An absolute path is a slash and a text. -/
theorem exists_of_isAbsolute {p : Path} (h : isAbsolute p = true) : ∃ body, p = '/' :: body := by
  cases p with
  | nil => simp [isAbsolute] at h
  | cons c body =>
      obtain rfl : c = '/' := by simpa [isAbsolute] using h
      exact ⟨body, rfl⟩

/-- The steps behind the last slash come last; the text is read backwards. -/
theorem steps_reverse (cs : Text) :
    steps cs.reverse =
      steps (cs.dropWhile (· != '/')).reverse ++ steps (cs.takeWhile (· != '/')).reverse := by
  have hsplit : cs.reverse = (cs.dropWhile (· != '/')).reverse ++
      (cs.takeWhile (· != '/')).reverse := by
    rw [← List.reverse_append, List.takeWhile_append_dropWhile]
  rw [hsplit]
  cases hrest : cs.dropWhile (· != '/') with
  | nil => rw [List.reverse_nil, steps_nil, List.nil_append, List.nil_append]
  | cons c rest =>
      obtain rfl : c = '/' := by
        have hhead := List.head_dropWhile_not (· != '/') (l := cs) (by simp [hrest])
        simpa [hrest] using hhead
      rw [List.reverse_cons, List.append_assoc, List.singleton_append, steps_append_slash,
        steps_append_slash, steps_nil, List.append_nil]

/-! ### Going up -/

/-- A text, read backwards, that does not begin with a slash or with a piece that does not count. -/
structure Busy (cs : Text) : Prop where
  slash : ∀ rest, cs ≠ '/' :: rest
  dot : cs ≠ ['.']
  dot_slash : ∀ rest, cs ≠ '.' :: '/' :: rest

theorem busy_dropIdle (cs : Text) : Busy (dropIdle cs) := by
  fun_induction dropIdle cs with
  | case1 => exact ⟨by simp, by simp, by simp⟩
  | case2 rest ih => exact ih
  | case3 => exact ⟨by simp, by simp, by simp⟩
  | case4 rest ih => exact ih
  | case5 rest _ hslash hdot hdotSlash => exact ⟨hslash, hdot, hdotSlash⟩

theorem dropIdle_of_busy {cs : Text} (h : Busy cs) : dropIdle cs = cs := by
  fun_cases dropIdle cs with
  | case1 => rfl
  | case2 rest => exact absurd rfl (h.slash rest)
  | case3 => exact absurd rfl h.dot
  | case4 rest => exact absurd rfl (h.dot_slash rest)
  | case5 => rfl

/-- Pieces that do not count give no steps. -/
theorem steps_dropIdle (cs : Text) : steps (dropIdle cs).reverse = steps cs.reverse := by
  fun_induction dropIdle cs with
  | case1 => rfl
  | case2 rest ih =>
      rw [ih, List.reverse_cons, steps_append_slash, steps_nil, List.append_nil]
  | case3 => exact steps_here.symm
  | case4 rest ih =>
      rw [ih, List.reverse_cons, List.reverse_cons, List.append_assoc, List.singleton_append,
        steps_append_slash, steps_here, List.append_nil]
  | case5 => rfl

/-- The first piece of a busy text is a step. -/
theorem Busy.exists_step {c : Char} {rest : Text} (h : Busy (c :: rest)) :
    ∃ step, steps ((c :: rest).takeWhile (· != '/')).reverse = [step] := by
  have hc : c ≠ '/' := by
    rintro rfl
    exact h.slash rest rfl
  have hpiece : (c :: rest).takeWhile (· != '/') = c :: rest.takeWhile (· != '/') := by
    rw [List.takeWhile_cons_of_pos (by simpa using hc)]
  have hslash : '/' ∉ ((c :: rest).takeWhile (· != '/')).reverse := by
    intro hmem
    have hkept := List.all_eq_true.1 (List.all_takeWhile (l := c :: rest)) _
      (List.mem_reverse.1 hmem)
    simp at hkept
  have hempty : ((c :: rest).takeWhile (· != '/')).reverse ≠ [] := by simp [hpiece]
  have hdot : ((c :: rest).takeWhile (· != '/')).reverse ≠ ['.'] := by
    intro hdot
    rw [hpiece, List.reverse_eq_iff, List.reverse_singleton, List.cons.injEq] at hdot
    obtain ⟨rfl, hnone⟩ := hdot
    -- behind the dot the text would end, or go on with a slash
    cases rest with
    | nil => exact h.dot rfl
    | cons b rest =>
        by_cases hb : b = '/'
        · subst hb
          exact h.dot_slash rest rfl
        · simp [hb] at hnone
  rw [steps_of_not_mem hslash, ofPiece?, if_neg (not_or_intro hempty hdot)]
  split
  · exact ⟨_, rfl⟩
  · exact ⟨_, rfl⟩

theorem parent?_of_dropIdle_eq_nil {body : Text} (h : dropIdle body.reverse = []) :
    parent? ('/' :: body) = none := by
  have hhead : headLength ('/' :: body) = 1 := rfl
  rw [parent?, hhead, List.drop_one, List.tail_cons, h]
  rfl

theorem parent?_of_dropIdle_eq_cons {body : Text} {c : Char} {rest : Text}
    (h : dropIdle body.reverse = c :: rest) :
    parent? ('/' :: body) =
      some ('/' :: (dropIdle ((c :: rest).dropWhile (· != '/'))).reverse) := by
  have hhead : headLength ('/' :: body) = 1 := rfl
  have hbusy : Busy (c :: rest) := h ▸ busy_dropIdle body.reverse
  have hc : c ≠ '/' := by
    rintro rfl
    exact hbusy.slash rest rfl
  have hskip : (c :: rest).dropWhile (· != '/') = rest.dropWhile (· != '/') :=
    List.dropWhile_cons_of_pos (by simpa using hc)
  rw [parent?, hhead, List.drop_one, List.tail_cons, h, hskip]
  rfl

/-- Going up from a slash and a text takes away the last step of the text, where it has one. -/
theorem parent?_cases (body : Text) :
    (parent? ('/' :: body) = none ∧ steps body = []) ∨
      ∃ up step, parent? ('/' :: body) = some ('/' :: up) ∧ steps body = steps up ++ [step] := by
  have hbody : steps body = steps (dropIdle body.reverse).reverse := by
    rw [steps_dropIdle, List.reverse_reverse]
  cases h : dropIdle body.reverse with
  | nil =>
      refine Or.inl ⟨parent?_of_dropIdle_eq_nil h, ?_⟩
      rw [hbody, h]
      rfl
  | cons c rest =>
      obtain ⟨step, hstep⟩ := (h ▸ busy_dropIdle body.reverse : Busy (c :: rest)).exists_step
      refine Or.inr ⟨_, step, parent?_of_dropIdle_eq_cons h, ?_⟩
      rw [hbody, h, steps_reverse, hstep, steps_dropIdle]

/-- **Going up takes away the last step** of an absolute path. -/
theorem components_of_parent? {p q : Path} (hp : isAbsolute p = true) (h : parent? p = some q) :
    isAbsolute q = true ∧ ∃ step, components p = components q ++ [step] := by
  obtain ⟨body, rfl⟩ := exists_of_isAbsolute hp
  obtain ⟨hnone, -⟩ | ⟨up, step, hup, hsteps⟩ := parent?_cases body
  · rw [hnone] at h
    cases h
  · obtain rfl : '/' :: up = q := by simpa [hup] using h
    refine ⟨rfl, step, ?_⟩
    rw [components_root_cons, components_root_cons, hsteps]
    rfl

/-- Only from the root one cannot go up. -/
theorem components_of_parent?_eq_none {p : Path} (hp : isAbsolute p = true)
    (h : parent? p = none) : components p = [.root] := by
  obtain ⟨body, rfl⟩ := exists_of_isAbsolute hp
  obtain ⟨-, hsteps⟩ | ⟨up, step, hup, -⟩ := parent?_cases body
  · rw [components_root_cons, hsteps]
  · rw [hup] at h
    cases h

/-! ### The longest common beginning -/

/-- The longest common beginning of several lists of steps. -/
structure DeepestCommon (common : List Component) (all : List (List Component)) : Prop where
  leads : ∀ s ∈ all, common <+: s
  deepest : ∀ t, (∀ s ∈ all, t <+: s) → t <+: common

variable {common other s t : List Component} {all others : List (List Component)}

/-- There is only one, whatever the order of the lists. -/
theorem DeepestCommon.eq (h : DeepestCommon common all) (h' : DeepestCommon other others)
    (hmem : ∀ s, s ∈ all ↔ s ∈ others) : common = other := by
  have hle : common <+: other := h'.deepest _ fun s hs => h.leads s ((hmem s).2 hs)
  have hge : other <+: common := h.deepest _ fun s hs => h'.leads s ((hmem s).1 hs)
  exact hle.eq_of_length (Nat.le_antisymm hle.length_le hge.length_le)

theorem deepestCommon_singleton (s : List Component) : DeepestCommon s [s] where
  leads := List.forall_mem_singleton.2 List.prefix_rfl
  deepest _ ht := ht s List.mem_cons_self

theorem deepestCommon_pair (hs : common <+: s) (ht : common <+: t)
    (hdeepest : ∀ r, r <+: s → r <+: t → r <+: common) : DeepestCommon common [s, t] where
  leads := List.forall_mem_cons.2 ⟨hs, List.forall_mem_singleton.2 ht⟩
  deepest r hr := hdeepest r (hr s List.mem_cons_self) (hr t (by simp))

/-- The longest common beginning of two lists stands for both of them. -/
theorem DeepestCommon.of_pair (hpair : DeepestCommon other [s, t])
    (h : DeepestCommon common (other :: all)) : DeepestCommon common (s :: t :: all) where
  leads := by
    have hother : common <+: other := h.leads other List.mem_cons_self
    simp only [List.forall_mem_cons]
    exact ⟨hother.trans (hpair.leads s List.mem_cons_self), hother.trans (hpair.leads t (by simp)),
      fun r hr => h.leads r (List.mem_cons_of_mem _ hr)⟩
  deepest r hr := by
    simp only [List.forall_mem_cons] at hr
    obtain ⟨hs, ht, hall⟩ := hr
    refine h.deepest r (List.forall_mem_cons.2 ⟨hpair.deepest r ?_, hall⟩)
    exact List.forall_mem_cons.2 ⟨hs, List.forall_mem_singleton.2 ht⟩

/-! ### Going up as far as needed -/

theorem leadsTo_iff {dir p : Path} : leadsTo dir p = true ↔ components dir <+: components p :=
  List.isPrefixOf_iff_prefix

/-- One goes up no further than needed. -/
theorem deepestCommon_retreat {p root : Path} (hp : isAbsolute p = true)
    (hroot : isAbsolute root = true) :
    isAbsolute (retreat p root) = true ∧
      DeepestCommon (components (retreat p root)) [components root, components p] := by
  fun_induction retreat p root with
  | case1 root hleads =>
      exact ⟨hroot, deepestCommon_pair List.prefix_rfl (leadsTo_iff.1 hleads) fun r hr _ => hr⟩
  | case2 root hleads dir hdir ih =>
      obtain ⟨habsolute, step, hcomponents⟩ := components_of_parent? hroot hdir
      obtain ⟨hretreat, hpair⟩ := ih habsolute
      have hup : components dir <+: components root := hcomponents ▸ List.prefix_append _ _
      refine ⟨hretreat, deepestCommon_pair ((hpair.leads _ List.mem_cons_self).trans hup)
        (hpair.leads _ (by simp)) fun r hr hrp => ?_⟩
      -- what leads to both paths is not the directory itself, and so it leads further up
      have hfurther : r <+: components dir := by
        rw [hcomponents] at hr
        refine (List.prefix_concat_iff.1 hr).resolve_left fun heq => hleads ?_
        rw [leadsTo_iff, hcomponents, ← heq]
        exact hrp
      exact hpair.deepest r (List.forall_mem_cons.2 ⟨hfurther, List.forall_mem_singleton.2 hrp⟩)
  | case3 root hleads hnone =>
      -- the root leads to every absolute path
      obtain ⟨target, rfl⟩ := exists_of_isAbsolute hp
      refine absurd (leadsTo_iff.2 ?_) hleads
      rw [components_of_parent?_eq_none hroot hnone, components_root_cons]
      exact List.prefix_append [Component.root] _

/-- Going through several paths gives the deepest directory that leads to all of them. -/
theorem deepestCommon_foldl {ds : List Path} {root : Path} (hroot : isAbsolute root = true)
    (hds : ∀ d ∈ ds, isAbsolute d = true) :
    DeepestCommon (components (ds.foldl (fun root d => retreat d root) root))
      (components root :: ds.map components) := by
  induction ds generalizing root with
  | nil => exact deepestCommon_singleton (components root)
  | cons d ds ih =>
      obtain ⟨habsolute, hpair⟩ := deepestCommon_retreat (hds d List.mem_cons_self) hroot
      exact hpair.of_pair (ih habsolute fun e he => hds e (List.mem_cons_of_mem _ he))

/-! ### Directories -/

/-- The steps to the directory that an absolute path stands for: a file stands for the directory
that it is in, anything else for itself.  The root is in no directory. -/
def directorySteps (isFile : Path → Bool) (p : Path) : List Component :=
  if isFile p ∧ components p ≠ [.root] then (components p).dropLast else components p

theorem components_directoryOf (isFile : Path → Bool) {p : Path} (hp : isAbsolute p = true) :
    isAbsolute (directoryOf isFile p) = true ∧
      components (directoryOf isFile p) = directorySteps isFile p := by
  unfold directoryOf directorySteps
  cases hup : parent? p with
  | none => exact ⟨hp, (if_neg fun h => h.2 (components_of_parent?_eq_none hp hup)).symm⟩
  | some dir =>
      obtain ⟨hdir, step, hcomponents⟩ := components_of_parent? hp hup
      have hroot : components p ≠ [.root] := by
        obtain ⟨body, rfl⟩ := exists_of_isAbsolute hdir
        rw [hcomponents, components_root_cons]
        simp
      cases hfile : isFile p with
      | true =>
          refine ⟨hdir, ?_⟩
          rw [if_pos ⟨rfl, hroot⟩, hcomponents, List.dropLast_concat]
          rfl
      | false => exact ⟨hp, (if_neg fun h => Bool.false_ne_true h.1).symm⟩

/-- The common directory of absolute paths is the deepest one that leads to their directories. -/
theorem deepestCommon_commonRoot (isFile : Path → Bool) {ps : List Path} (hne : ps ≠ [])
    (hps : ∀ p ∈ ps, isAbsolute p = true) :
    DeepestCommon (components (commonRoot isFile ps)) (ps.map (directorySteps isFile)) := by
  have hsteps : ps.map (directorySteps isFile) = (ps.map (directoryOf isFile)).map components := by
    rw [List.map_map]
    exact List.map_congr_left fun p hp => (components_directoryOf isFile (hps p hp)).2.symm
  have habsolute : ∀ d ∈ ps.map (directoryOf isFile), isAbsolute d = true := by
    intro d hd
    obtain ⟨p, hp, rfl⟩ := List.mem_map.1 hd
    exact (components_directoryOf isFile (hps p hp)).1
  rw [hsteps, commonRoot]
  cases hdirs : ps.map (directoryOf isFile) with
  | nil => exact absurd (List.map_eq_nil_iff.1 hdirs) hne
  | cons d ds =>
      rw [hdirs] at habsolute
      exact deepestCommon_foldl (habsolute d List.mem_cons_self)
        fun e he => habsolute e (List.mem_cons_of_mem _ he)

/-! ### Resolved paths -/

/-- A name of an entry of a directory. -/
structure IsName (n : Text) : Prop where
  slash : '/' ∉ n
  ne_nil : n ≠ []
  ne_here : n ≠ ['.']
  ne_up : n ≠ ['.', '.']

instance (n : Text) : Decidable (IsName n) :=
  decidable_of_iff ('/' ∉ n ∧ n ≠ [] ∧ n ≠ ['.'] ∧ n ≠ ['.', '.'])
    ⟨fun ⟨hslash, hnil, hhere, hup⟩ => ⟨hslash, hnil, hhere, hup⟩,
      fun h => ⟨h.slash, h.ne_nil, h.ne_here, h.ne_up⟩⟩

/-- The path of names from the root on. -/
def fromRoot (names : List Text) : Path := '/' :: Text.path '/' names

/-- A path of names between single slashes, from the root on. -/
def Resolved (p : Path) : Prop := ∃ names, (∀ n ∈ names, IsName n) ∧ p = fromRoot names

/-- A name that is read backwards is busy, whatever stands in front of it. -/
theorem IsName.busy {n : Text} (h : IsName n) (front : Text) : Busy (n.reverse ++ front) := by
  have hslash : '/' ∉ n.reverse := fun hmem => h.slash (List.mem_reverse.1 hmem)
  have hhere : n.reverse ≠ ['.'] := fun hdot => h.ne_here (by simpa using hdot)
  cases hn : n.reverse with
  | nil => exact absurd (by simpa using hn) h.ne_nil
  | cons c cs =>
      rw [hn] at hslash hhere
      refine ⟨?_, ?_, ?_⟩
      · rintro rest ⟨⟩
        exact hslash List.mem_cons_self
      · intro heq
        obtain ⟨rfl, hnil⟩ := List.cons.inj heq
        exact hhere (by rw [(List.append_eq_nil_iff.1 hnil).1])
      · rintro rest heq
        obtain ⟨rfl, hrest⟩ := List.cons.inj heq
        cases cs with
        | nil => exact hhere rfl
        | cons b cs =>
            obtain ⟨rfl, -⟩ := List.cons.inj hrest
            exact hslash (by simp)

/-- What stands in front of the last of several names. -/
def beforeLast (names : List Text) : Text :=
  if names = [] then [] else Text.path '/' names ++ ['/']

theorem path_concat (names : List Text) (n : Text) :
    Text.path '/' (names ++ [n]) = beforeLast names ++ n := by
  unfold beforeLast
  split
  · next h => rw [h, List.nil_append, List.nil_append, path_singleton]
  · next h =>
    rw [path_append h (by simp), path_singleton, List.append_assoc, List.singleton_append]

/-- The last name of a path counts. -/
theorem dropIdle_path {names : List Text} (h : ∀ n ∈ names, IsName n) :
    dropIdle (Text.path '/' names).reverse = (Text.path '/' names).reverse := by
  rcases List.eq_nil_or_concat' names with rfl | ⟨front, n, rfl⟩
  · rfl
  · rw [path_concat, List.reverse_append]
    exact dropIdle_of_busy ((h n (by simp)).busy _)

/-- Going up from a resolved path leaves out its last name. -/
theorem parent?_fromRoot {names : List Text} {n : Text} (h : ∀ m ∈ names ++ [n], IsName m) :
    parent? (fromRoot (names ++ [n])) = some (fromRoot names) := by
  have hn : IsName n := h n (by simp)
  have hreverse : (Text.path '/' (names ++ [n])).reverse =
      n.reverse ++ (beforeLast names).reverse := by
    rw [path_concat, List.reverse_append]
  have hall : ∀ c ∈ n.reverse, (c != '/') = true := by
    intro c hc
    rw [bne_iff_ne]
    rintro rfl
    exact hn.slash (List.mem_reverse.1 hc)
  have hidle := dropIdle_path h
  cases hpath : (Text.path '/' (names ++ [n])).reverse with
  | nil =>
      rw [hreverse, List.append_eq_nil_iff, List.reverse_eq_nil_iff] at hpath
      exact absurd hpath.1 hn.ne_nil
  | cons c cs =>
      rw [fromRoot, parent?_of_dropIdle_eq_cons (hidle.trans hpath), ← hpath, hreverse,
        List.dropWhile_append_of_pos hall]
      have hnames : ∀ m ∈ names, IsName m := fun m hm => h m (List.mem_append_left _ hm)
      unfold beforeLast
      split
      · next hnil =>
        rw [hnil]
        rfl
      · rw [List.reverse_append, List.reverse_singleton, List.singleton_append,
          List.dropWhile_cons_of_neg (by decide), dropIdle, dropIdle_path hnames,
          List.reverse_reverse, fromRoot]

/-- Going up from a resolved path gives a resolved path. -/
theorem Resolved.of_parent? {p q : Path} (hp : Resolved p) (h : parent? p = some q) :
    Resolved q := by
  obtain ⟨names, hnames, rfl⟩ := hp
  rcases List.eq_nil_or_concat' names with rfl | ⟨front, n, rfl⟩
  · cases h
  · rw [parent?_fromRoot hnames, Option.some_inj] at h
    exact ⟨front, fun m hm => hnames m (List.mem_append_left _ hm), h.symm⟩

theorem Resolved.directoryOf {p : Path} (hp : Resolved p) (isFile : Path → Bool) :
    Resolved (directoryOf isFile p) := by
  unfold Path.directoryOf
  split
  · next dir hdir =>
    split
    · exact hp.of_parent? hdir
    · exact hp
  · exact hp

theorem Resolved.retreat {root : Path} (hroot : Resolved root) (p : Path) :
    Resolved (retreat p root) := by
  fun_induction Path.retreat p root with
  | case1 => exact hroot
  | case2 root _ dir hdir ih => exact ih (hroot.of_parent? hdir)
  | case3 => exact hroot

theorem Resolved.commonRoot {ps : List Path} (hne : ps ≠ []) (hps : ∀ p ∈ ps, Resolved p)
    (isFile : Path → Bool) : Resolved (commonRoot isFile ps) := by
  have hfold : ∀ (ds : List Path) (root : Path), Resolved root →
      Resolved (ds.foldl (fun root d => Path.retreat d root) root) := by
    intro ds
    induction ds with
    | nil => exact fun root hroot => hroot
    | cons d ds ih => exact fun root hroot => ih _ (hroot.retreat d)
  cases ps with
  | nil => exact absurd rfl hne
  | cons p ps => exact hfold _ _ ((hps p List.mem_cons_self).directoryOf isFile)

theorem components_fromRoot {names : List Text} (h : ∀ n ∈ names, IsName n) :
    components (fromRoot names) = .root :: names.map .name := by
  rw [fromRoot, components_root_cons]
  congr 1
  cases names with
  | nil => rfl
  | cons n names =>
      rw [steps, splitOn_path (by simp) fun m hm => (h m hm).slash]
      refine List.filterMap_eq_map_iff_forall_eq_some.2 fun m hm => ?_
      have hm := h m hm
      simp [ofPiece?, hm.ne_nil, hm.ne_here, hm.ne_up]

/-- A resolved path is known by its steps. -/
theorem Resolved.eq_of_components {p q : Path} (hp : Resolved p) (hq : Resolved q)
    (h : components p = components q) : p = q := by
  obtain ⟨names, hnames, rfl⟩ := hp
  obtain ⟨others, hothers, rfl⟩ := hq
  rw [components_fromRoot hnames, components_fromRoot hothers, List.cons.injEq] at h
  have hinjective : Function.Injective Component.name := fun _ _ heq => Component.name.inj heq
  rw [List.map_injective_iff.2 hinjective h.2]

/-! ### The order of the paths -/

/-- **The deepest common directory.**  The common directory of absolute paths leads to the directory
of each of them, and whatever leads to all of these directories leads to it.  It is the same, as a
list of steps, in whatever order and how often the paths are given; and for resolved paths the text
is the same too. -/
theorem commonRoot_deepest (isFile : Path → Bool) {ps : List Path} (hne : ps ≠ [])
    (hps : ∀ p ∈ ps, isAbsolute p = true) :
    (∀ p ∈ ps, components (commonRoot isFile ps) <+: directorySteps isFile p) ∧
    (∀ t, (∀ p ∈ ps, t <+: directorySteps isFile p) → t <+: components (commonRoot isFile ps)) ∧
    ∀ qs : List Path, (∀ p, p ∈ qs ↔ p ∈ ps) →
      components (commonRoot isFile qs) = components (commonRoot isFile ps) ∧
        ((∀ p ∈ ps, Resolved p) → commonRoot isFile qs = commonRoot isFile ps) := by
  have hdeepest := deepestCommon_commonRoot isFile hne hps
  refine ⟨fun p hp => hdeepest.leads _ (List.mem_map_of_mem hp), fun t ht => ?_,
    fun qs hqs => ?_⟩
  · refine hdeepest.deepest t fun s hs => ?_
    obtain ⟨p, hp, rfl⟩ := List.mem_map.1 hs
    exact ht p hp
  · have hne' : qs ≠ [] := by
      obtain ⟨p, hp⟩ := List.exists_mem_of_ne_nil ps hne
      exact List.ne_nil_of_mem ((hqs p).2 hp)
    have hother := deepestCommon_commonRoot isFile hne' fun p hp => hps p ((hqs p).1 hp)
    have hequal : components (commonRoot isFile qs) = components (commonRoot isFile ps) := by
      refine hother.eq hdeepest fun s => ?_
      simp only [List.mem_map, hqs]
    refine ⟨hequal, fun hresolved => ?_⟩
    have hothers : ∀ p ∈ qs, Resolved p := fun p hp => hresolved p ((hqs p).1 hp)
    exact (Resolved.commonRoot hne' hothers isFile).eq_of_components
      (Resolved.commonRoot hne hresolved isFile) hequal

/-- Two directories with names that begin alike: one of them is given with a file in it, the other
by itself and with a directory in it. -/
def alikePaths : List Path :=
  ["/srv/app/src".toList, "/srv/apple/x.php".toList, "/srv/app".toList]

/-- The common directory of these paths is the one that both are in, also backwards and twice. -/
theorem commonRoot_deepest_of_alikePaths :
    commonRoot (· == "/srv/apple/x.php".toList) alikePaths = "/srv".toList ∧
    commonRoot (· == "/srv/apple/x.php".toList) (alikePaths.reverse ++ alikePaths) =
      "/srv".toList := by
  have hforward : commonRoot (· == "/srv/apple/x.php".toList) alikePaths = "/srv".toList := by
    decide +kernel
  have hresolved : ∀ p ∈ alikePaths, Resolved p := by
    simp only [alikePaths, List.forall_mem_cons]
    exact ⟨⟨["srv", "app", "src"].map String.toList, by decide, by decide⟩,
      ⟨["srv", "apple", "x.php"].map String.toList, by decide, by decide⟩,
      ⟨["srv", "app"].map String.toList, by decide, by decide⟩, by simp⟩
  obtain ⟨-, -, horder⟩ := commonRoot_deepest (· == "/srv/apple/x.php".toList)
    (by decide : alikePaths ≠ []) (by decide)
  refine ⟨hforward, ((horder _ fun p => ?_).2 hresolved).trans hforward⟩
  simp

end Path

end HintCheck
