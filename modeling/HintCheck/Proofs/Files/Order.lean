/-
**How files are found does not matter.**

Files are looked for below several roots, which may overlap, and the paths that are found are put in
order before and after they are put together.  Later the files are put in order once more, and a
class of a later file takes the place of one of the same name.  This module shows that none of this
can be seen: roots that lead to the same paths give the same list, and the diagnostics of files do
not depend on the order in which the files are named.  Two paths are the same when they have the
same components.

Main definitions:

* `HintCheck.Path.Before` — a path that is in front of another one, component by component;
* `HintCheck.Disk.found` — the paths that several roots lead to.

Main results:

* `HintCheck.Path.pairwise_before_sorted`, `HintCheck.Path.mem_components_sorted` — the paths in
  order, each of them once and none missing;
* `HintCheck.Path.map_components_eq` — a list in strict order is known by its members;
* `HintCheck.Disk.check_eq_ok` — the diagnostics of files that can be read;
* `HintCheck.Disk.found_in_any_order` — **how files are found does not matter.**
-/

import Mathlib.Data.List.Nodup
import Mathlib.Data.List.Sort
import HintCheck.Files.Check

set_option relaxedAutoImplicit false
set_option autoImplicit false

namespace HintCheck

namespace Path

/-! ### The order of paths -/

theorem Component.key_injective : Function.Injective Component.key := by
  intro a b h
  cases a with
  | root => cases b with
    | root => rfl
    | _ => cases h
  | here => cases b with
    | here => rfl
    | _ => cases h
  | up => cases b with
    | up => rfl
    | _ => cases h
  | name text => cases b with
    | name other =>
        have hchar : Function.Injective Char.toNat := fun c k hck =>
          Char.ext (UInt32.toNat_inj.1 hck)
        rw [List.map_injective_iff.2 hchar (List.cons.inj h).2]
    | _ => cases h

/-- The place of components among all lists of components. -/
def rank (cs : List Component) : List (List Nat) := cs.map Component.key

theorem rank_injective : Function.Injective rank :=
  List.map_injective_iff.2 Component.key_injective

theorem le_iff {p q : Path} :
    le p q = true ↔ (compare (rank (components p)) (rank (components q))).isLE = true := Iff.rfl

theorem le_trans (p q r : Path) (hpq : le p q = true) (hqr : le q r = true) : le p r = true :=
  le_iff.2 (Std.TransCmp.isLE_trans (le_iff.1 hpq) (le_iff.1 hqr))

theorem le_total (p q : Path) : (le p q || le q p) = true := by
  have hswap : compare (rank (components q)) (rank (components p)) =
      (compare (rank (components p)) (rank (components q))).swap := Std.OrientedCmp.eq_swap
  rw [Bool.or_eq_true, le_iff, le_iff, hswap]
  cases compare (rank (components p)) (rank (components q)) <;> simp

/-- Paths that are each in front of the other have the same components. -/
theorem components_eq_of_le {p q : Path} (hpq : le p q = true) (hqp : le q p = true) :
    components p = components q :=
  rank_injective (Std.LawfulEqCmp.eq_of_compare (Std.OrientedCmp.isLE_antisymm hpq hqp))

/-- A path that is in front of another one. -/
def Before (p q : Path) : Prop := le p q = true ∧ components p ≠ components q

theorem Before.trans_le {p q r : Path} (hpq : Before p q) (hqr : le q r = true) : Before p r := by
  refine ⟨le_trans p q r hpq.1 hqr, fun hpr => hpq.2 (components_eq_of_le hpq.1 ?_)⟩
  rw [le_iff, hpr, ← le_iff]
  exact hqr

/-! ### Paths in order -/

theorem dropRepeatedAfter_sublist (last : Path) (ps : List Path) :
    (dropRepeatedAfter last ps).Sublist ps := by
  induction ps generalizing last with
  | nil => exact List.Sublist.refl _
  | cons p ps ih =>
      rw [dropRepeatedAfter]
      split
      · exact (ih last).cons p
      · exact (ih p).cons_cons p

/-- Of paths in order, those that are left are in strict order. -/
theorem pairwise_before_dropRepeatedAfter {last : Path} {ps : List Path}
    (h : (last :: ps).Pairwise fun p q => le p q = true) :
    (last :: dropRepeatedAfter last ps).Pairwise Before := by
  induction ps generalizing last with
  | nil => simp [dropRepeatedAfter]
  | cons p ps ih =>
      obtain ⟨hlast, hps⟩ := List.pairwise_cons.1 h
      rw [dropRepeatedAfter]
      split
      · exact ih (h.sublist ((List.sublist_cons_self p ps).cons_cons last))
      · next hne =>
        refine List.pairwise_cons.2 ⟨?_, ih hps⟩
        have hfirst : Before last p := ⟨hlast p List.mem_cons_self, hne⟩
        intro q hq
        rcases List.mem_cons.1 hq with rfl | hq
        · exact hfirst
        · exact hfirst.trans_le
            ((List.pairwise_cons.1 hps).1 q ((dropRepeatedAfter_sublist p ps).subset hq))

/-- No path is lost that is not the same as one that is left. -/
theorem mem_components_dropRepeatedAfter (last : Path) (ps : List Path) (cs : List Component) :
    cs ∈ (last :: dropRepeatedAfter last ps).map components ↔
      cs ∈ (last :: ps).map components := by
  induction ps generalizing last with
  | nil => rfl
  | cons p ps ih =>
      rw [dropRepeatedAfter]
      split
      · next heq =>
        rw [ih last, List.map_cons, List.map_cons, List.map_cons, heq]
        simp
      · rw [List.map_cons, List.mem_cons, ih p, List.map_cons (l := p :: ps), List.mem_cons]

theorem pairwise_le_mergeSort (ps : List Path) :
    (ps.mergeSort le).Pairwise fun p q => le p q = true :=
  List.pairwise_mergeSort le_trans le_total ps

/-- Paths that are in order already, and none of which is written in two ways, are what sorting
gives. -/
theorem mergeSort_eq_of_perm {ps qs : List Path} (hperm : ps.Perm qs)
    (hqs : qs.Pairwise fun p q => le p q = true)
    (hwritten : ∀ p ∈ qs, ∀ q ∈ qs, components p = components q → p = q) :
    ps.mergeSort le = qs := by
  have hsort : (ps.mergeSort le).Perm qs := (List.mergeSort_perm ps le).trans hperm
  refine hsort.eq_of_pairwise ?_ (pairwise_le_mergeSort ps) hqs
  intro p q hp hq hpq hqp
  exact hwritten p (hsort.mem_iff.1 hp) q hq (components_eq_of_le hpq hqp)

/-- The paths in order are in strict order. -/
theorem pairwise_before_sorted (ps : List Path) : (sorted ps).Pairwise Before := by
  have h := pairwise_le_mergeSort ps
  rw [sorted]
  cases hps : ps.mergeSort le with
  | nil => exact List.Pairwise.nil
  | cons p ps =>
      rw [hps] at h
      exact pairwise_before_dropRepeatedAfter h

theorem mem_of_mem_sorted {ps : List Path} {p : Path} (h : p ∈ sorted ps) : p ∈ ps := by
  rw [← (List.mergeSort_perm ps le).mem_iff]
  rw [sorted] at h
  cases hps : ps.mergeSort le with
  | nil => simp [hps, dropRepeated] at h
  | cons q qs =>
      rw [hps, dropRepeated] at h
      exact ((dropRepeatedAfter_sublist q qs).cons_cons q).subset h

theorem mem_components_sorted (ps : List Path) (cs : List Component) :
    cs ∈ (sorted ps).map components ↔ cs ∈ ps.map components := by
  rw [← ((List.mergeSort_perm ps le).map components).mem_iff, sorted]
  cases ps.mergeSort le with
  | nil => rfl
  | cons p ps => exact mem_components_dropRepeatedAfter p ps cs

/-- A list of paths in strict order is known by its members. -/
theorem map_components_eq {ps qs : List Path} (hps : ps.Pairwise Before) (hqs : qs.Pairwise Before)
    (h : ∀ cs, cs ∈ ps.map components ↔ cs ∈ qs.map components) :
    ps.map components = qs.map components := by
  -- the same order, on components
  let r (cs ds : List Component) : Prop := (compare (rank cs) (rank ds)).isLE = true ∧ cs ≠ ds
  have : Std.Antisymm r := ⟨fun cs ds hcd hdc =>
    rank_injective (Std.LawfulEqCmp.eq_of_compare (Std.OrientedCmp.isLE_antisymm hcd.1 hdc.1))⟩
  have : Std.Irrefl r := ⟨fun cs hcs => hcs.2 rfl⟩
  have hp : (ps.map components).Pairwise r := List.pairwise_map.2 hps
  have hq : (qs.map components).Pairwise r := List.pairwise_map.2 hqs
  exact hp.eq_of_mem_iff hq h

/-- Lists of the same components are the same where each path is written in one way. -/
theorem eq_of_map_components {ps qs : List Path} (h : ps.map components = qs.map components)
    (hwritten : ∀ p ∈ ps, ∀ q ∈ qs, components p = components q → p = q) : ps = qs := by
  induction ps generalizing qs with
  | nil =>
      cases qs with
      | nil => rfl
      | cons q qs => cases h
  | cons p ps ih =>
      cases qs with
      | nil => cases h
      | cons q qs =>
          obtain ⟨hfirst, hrest⟩ := List.cons.inj h
          rw [hwritten p List.mem_cons_self q List.mem_cons_self hfirst,
            ih hrest fun a ha b hb => hwritten a (List.mem_cons_of_mem _ ha) b
              (List.mem_cons_of_mem _ hb)]

end Path

namespace Disk

/-! ### Files below roots -/

/-- The paths with code at several roots or below them, in the order in which they are found. -/
def found (d : Disk) (roots : List Path) : List Path := roots.flatMap d.codeFiles

/-- Roots that lead to the same paths give the same paths in order. -/
theorem map_components_codeFilesOf (d : Disk) {roots others : List Path}
    (h : ∀ cs, cs ∈ (d.found roots).map Path.components ↔
      cs ∈ (d.found others).map Path.components) :
    (d.codeFilesOf roots).map Path.components = (d.codeFilesOf others).map Path.components := by
  refine Path.map_components_eq (Path.pairwise_before_sorted _) (Path.pairwise_before_sorted _) ?_
  intro cs
  calc cs ∈ (d.codeFilesOf roots).map Path.components
      ↔ cs ∈ (d.found roots).map Path.components := Path.mem_components_sorted _ cs
    _ ↔ cs ∈ (d.found others).map Path.components := h cs
    _ ↔ cs ∈ (d.codeFilesOf others).map Path.components := (Path.mem_components_sorted _ cs).symm

/-! ### Diagnostics of files -/

/-- The file at a path that can be read. -/
def sourceAt (d : Disk) (p : Path) : SourceFile := SourceFile.ofSource p ((d.read? p).getD [])

theorem readSource_eq_ok {d : Disk} {p : Path} (h : (d.read? p).isSome = true) :
    d.readSource p = .ok (d.sourceAt p) := by
  obtain ⟨text, htext⟩ := Option.isSome_iff_exists.1 h
  rw [readSource, sourceAt, htext]
  rfl

theorem mapM_readSource {d : Disk} {ps : List Path} (h : ∀ p ∈ ps, (d.read? p).isSome = true) :
    ps.mapM d.readSource = .ok (ps.map d.sourceAt) := by
  induction ps with
  | nil => rfl
  | cons p ps ih =>
      rw [List.mapM_cons, readSource_eq_ok (h p List.mem_cons_self),
        ih fun q hq => h q (List.mem_cons_of_mem p hq)]
      rfl

/-- The files at some paths, in order. -/
def sources (d : Disk) (ps : List Path) : List SourceFile :=
  (ps.map d.sourceAt).mergeSort fun f g => Path.le f.path g.path

/-- Where all files can be read, checking them succeeds. -/
theorem check_eq_ok {d : Disk} {ps : List Path} (s : Settings)
    (h : ∀ p ∈ ps, (d.read? p).isSome = true) :
    d.check s ps = .ok (checkFiles s (d.sources ps)) := by
  rw [check, mapM_readSource h]
  rfl

theorem pairwise_le_sources (d : Disk) (ps : List Path) :
    (d.sources ps).Pairwise fun f g => Path.le f.path g.path = true :=
  @List.pairwise_mergeSort SourceFile (fun f g => Path.le f.path g.path)
    (fun f g k => Path.le_trans f.path g.path k.path) (fun f g => Path.le_total f.path g.path) _

theorem exists_of_mem_sources {d : Disk} {ps : List Path} {f : SourceFile}
    (h : f ∈ d.sources ps) : ∃ p ∈ ps, d.sourceAt p = f := List.mem_map.1 (List.mem_mergeSort.1 h)

/-- The order in which different paths are named does not matter to the files in order. -/
theorem sources_perm (d : Disk) {ps qs : List Path} (h : ps.Perm qs)
    (hdistinct : (ps.map Path.components).Nodup) : d.sources ps = d.sources qs := by
  have hperm : (d.sources ps).Perm (d.sources qs) :=
    ((List.mergeSort_perm _ _).trans (h.map d.sourceAt)).trans (List.mergeSort_perm _ _).symm
  refine hperm.eq_of_pairwise ?_ (d.pairwise_le_sources ps) (d.pairwise_le_sources qs)
  intro f g hf hg hfg hgf
  obtain ⟨p, hp, rfl⟩ := exists_of_mem_sources hf
  obtain ⟨q, hq, rfl⟩ := exists_of_mem_sources hg
  have hsame : Path.components p = Path.components q := Path.components_eq_of_le hfg hgf
  rw [List.inj_on_of_nodup_map hdistinct hp (h.mem_iff.2 hq) hsame]

/-! ### Both -/

/-- **How files are found does not matter.**  Roots that lead to the same paths, in whatever order
and however often, give the same list, in strict order and with each path that is found; where each
path is written in one way, even the letters are the same.  And the diagnostics of files that can be
read do not depend on the order in which they are named. -/
theorem found_in_any_order (d : Disk) :
    (∀ roots others : List Path,
      (∀ cs, cs ∈ (d.found roots).map Path.components ↔
        cs ∈ (d.found others).map Path.components) →
      (d.codeFilesOf roots).map Path.components = (d.codeFilesOf others).map Path.components ∧
      (d.codeFilesOf roots).Pairwise Path.Before ∧
      (∀ cs, cs ∈ (d.codeFilesOf roots).map Path.components ↔
        cs ∈ (d.found roots).map Path.components) ∧
      ((∀ p ∈ d.found roots, ∀ q ∈ d.found others,
        Path.components p = Path.components q → p = q) →
        d.codeFilesOf roots = d.codeFilesOf others)) ∧
    ∀ (s : Settings) (ps qs : List Path), ps.Perm qs → (ps.map Path.components).Nodup →
      (∀ p ∈ ps, (d.read? p).isSome = true) →
      ∃ ds, d.check s ps = .ok ds ∧ d.check s qs = .ok ds := by
  refine ⟨?_, ?_⟩
  · intro roots others h
    have hsame := d.map_components_codeFilesOf h
    refine ⟨hsame, Path.pairwise_before_sorted _, fun cs => Path.mem_components_sorted _ cs, ?_⟩
    intro hwritten
    refine Path.eq_of_map_components hsame fun p hp q hq => ?_
    exact hwritten p (Path.mem_of_mem_sorted hp) q (Path.mem_of_mem_sorted hq)
  · intro s ps qs hperm hdistinct hread
    refine ⟨checkFiles s (d.sources ps), check_eq_ok s hread, ?_⟩
    rw [check_eq_ok s fun q hq => hread q (hperm.mem_iff.2 hq), d.sources_perm hperm hdistinct]

/-- A disk with two files that declare the same class, one of them in a directory below the other,
a file whose name begins like that of their directory, and one without code. -/
def shopDisk : Disk :=
  { files :=
      [(["srv", "shop", "old", "Cart.php"].map String.toList, some "<?php class Cart {}".toList),
        (["srv", "shop", "Cart.php"].map String.toList,
          some "<?php class Cart implements \\IteratorAggregate {}".toList),
        (["srv", "shop.php"].map String.toList, some "<?php class A extends Cart {}".toList),
        (["srv", "notes.txt"].map String.toList, some [])]
    folders := []
    current := [] }

/-- Roots that lead to all files with code of that disk, to one of them more than once. -/
def shopRoots : List Path :=
  ["/srv/shop.php", "/srv/shop/old", "/srv/shop", "/srv/shop/old/Cart.php"].map String.toList

/-- The files of the disk are found from its topmost directory or piece by piece, and it does not
matter which of the two classes of one name is named first. -/
theorem found_in_any_order_of_shopDisk :
    (shopDisk.found shopRoots).length = 5 ∧
    shopDisk.codeFilesOf shopRoots = shopDisk.codeFilesOf ["/srv".toList] ∧
    ∃ ds, shopDisk.check {} (["/srv/shop/Cart.php", "/srv/shop/old/Cart.php"].map String.toList) =
        .ok ds ∧
      shopDisk.check {} (["/srv/shop/old/Cart.php", "/srv/shop/Cart.php"].map String.toList) =
        .ok ds := by
  have hfile : shopDisk.codeFiles "/srv/shop.php".toList = ["/srv/shop.php".toList] :=
    Path.mergeSort_eq_of_perm (by decide +kernel) (by decide +kernel) (by decide +kernel)
  have hold : shopDisk.codeFiles "/srv/shop/old".toList = ["/srv/shop/old/Cart.php".toList] :=
    Path.mergeSort_eq_of_perm (by decide +kernel) (by decide +kernel) (by decide +kernel)
  have hshop : shopDisk.codeFiles "/srv/shop".toList =
      ["/srv/shop/Cart.php", "/srv/shop/old/Cart.php"].map String.toList :=
    Path.mergeSort_eq_of_perm (by decide +kernel) (by decide +kernel) (by decide +kernel)
  have hcart : shopDisk.codeFiles "/srv/shop/old/Cart.php".toList =
      ["/srv/shop/old/Cart.php".toList] :=
    Path.mergeSort_eq_of_perm (by decide +kernel) (by decide +kernel) (by decide +kernel)
  have hsrv : shopDisk.codeFiles "/srv".toList =
      ["/srv/shop/Cart.php", "/srv/shop/old/Cart.php", "/srv/shop.php"].map String.toList :=
    Path.mergeSort_eq_of_perm (by decide +kernel) (by decide +kernel) (by decide +kernel)
  have hpieces : shopDisk.found shopRoots =
      ["/srv/shop.php", "/srv/shop/old/Cart.php", "/srv/shop/Cart.php", "/srv/shop/old/Cart.php",
        "/srv/shop/old/Cart.php"].map String.toList := by
    simp only [found, shopRoots, List.map_cons, List.map_nil, List.flatMap_cons, List.flatMap_nil,
      hfile, hold, hshop, hcart, List.cons_append, List.nil_append]
  have hwhole : shopDisk.found ["/srv".toList] =
      ["/srv/shop/Cart.php", "/srv/shop/old/Cart.php", "/srv/shop.php"].map String.toList := by
    rw [found, List.flatMap_singleton, hsrv]
  obtain ⟨hroots, hfiles⟩ := found_in_any_order shopDisk
  refine ⟨by rw [hpieces]; rfl, ?_, ?_⟩
  · refine (hroots shopRoots ["/srv".toList] ?_).2.2.2 ?_
    · intro cs
      rw [hpieces, hwhole]
      simp only [List.map_cons, List.map_nil, List.mem_cons, List.not_mem_nil, or_false]
      grind
    · rw [hpieces, hwhole]
      decide +kernel
  · exact hfiles {} _ _ (List.Perm.swap _ _ _) (by decide +kernel) (by decide +kernel)

end Disk

end HintCheck
