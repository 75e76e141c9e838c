/-
**One spelling of null.**

Every `?T` inside a type can be spelled as the union of `T` and null.  What stands in a union,
behind a question mark or in an array keeps its place when it is respelled, but two members of a
union that differ only in the spelling of null become one.

Main definitions:

* `HintCheck.Ty.OptionalFree` — the types without `?T` at any depth.

Main results:

* `HintCheck.Ty.isMember_denull`, `HintCheck.Ty.isOptionable_denull` — a respelled type can stand
  where the type can;
* `HintCheck.Ty.denull_optional`, `HintCheck.Ty.denull_union` — the respelled `?T`, and the
  respelled union when its members stay different;
* `HintCheck.Ty.denull_of_optionalFree` — **a type without `?T` is its own respelling.**
-/

import HintCheck.Proofs.Ty.Compatible

set_option relaxedAutoImplicit false
set_option autoImplicit false

namespace HintCheck

namespace Ty

/-- No `?T` at any depth. -/
inductive OptionalFree : Ty → Prop where
  | atom (a : Atom) : OptionalFree (.atom a)
  | named (n : Text) : OptionalFree (.named n)
  | array {e : Ty} (d : Nat) (he : OptionalFree e) : OptionalFree (.array e d)
  | generic (n : Text) {ps : List Ty} (hps : ∀ p ∈ ps, OptionalFree p) :
      OptionalFree (.generic n ps)
  | union {ms : List Ty} (hms : ∀ m ∈ ms, OptionalFree m) : OptionalFree (.union ms)
  | undefined : OptionalFree .undefined

/-! ### The parts of a respelled type -/

theorem denullAll_eq (ts : List Ty) : denullAll ts = ts.map denull := by
  induction ts with
  | nil => rfl
  | cons t ts ih => simp [denullAll, ih]

/-- A member of a union stays one member. -/
theorem isMember_denull {t : Ty} (hn : Normal t) (hm : IsMember t) : IsMember (denull t) := by
  cases t with
  | array e d =>
      obtain ⟨e', d', h⟩ := exists_arrayOf_eq hn.1 (denull e)
      rw [denull, h]
      exact trivial
  | atom a => exact hm
  | named n => exact hm
  | generic n ps => exact hm
  | union ms => exact absurd hm (by simp [IsMember])
  | optional t => exact absurd hm (by simp [IsMember])
  | undefined => exact absurd hm (by simp [IsMember])

theorem isDefined_denull {t : Ty} (hn : Normal t) : (denull t).isDefined = true := by
  cases t with
  | union ms =>
      obtain ⟨hlen, hmember, _, hall⟩ := hn.members
      have hpos : 0 < ms.length := by omega
      have hm : IsMember (denull ms[0]) :=
        isMember_denull (hall _ (List.getElem_mem hpos)) (hmember _ (List.getElem_mem hpos))
      have hmem : denull ms[0] ∈ ms.map denull := List.mem_map_of_mem (List.getElem_mem hpos)
      rw [denull, denullAll_eq]
      exact isDefined_unionOf hmem (m := denull ms[0]) (by simp [flatten_of_isMember hm])
  | optional t => exact isDefined_unionOf (t := atom .null) (by simp) (List.mem_singleton.2 rfl)
  | undefined => exact absurd hn (by simp [Normal])
  | array e d => exact isDefined_of_isMember (isMember_denull hn trivial)
  | _ => rfl

/-- What can stand behind a question mark still can with one spelling of null. -/
theorem isOptionable_denull {t : Ty} (hn : Normal t) (h : IsOptionable t) :
    IsOptionable (denull t) := by
  cases t with
  | array e d =>
      obtain ⟨e', d', harray⟩ := exists_arrayOf_eq hn.1 (denull e)
      rw [denull, harray]
      trivial
  | atom a => exact h
  | named n => trivial
  | generic n ps => trivial
  | _ => exact absurd h (by simp [IsOptionable])

/-- The short form becomes a union with null. -/
theorem denull_optional {t : Ty} (hn : Normal t) (h : IsOptionable t) :
    denull (optional t) = union [denull t, atom .null] := by
  rw [denull, unionOf_null (isOptionable_denull hn h)]

/-- A union stays a union when its respelled members are different. -/
theorem denull_union {ms : List Ty} (hn : Normal (union ms))
    (hdiff : ms.Pairwise fun a b => same (denull a) (denull b) = false) :
    denull (union ms) = union (ms.map denull) := by
  obtain ⟨hlen, hmember, _, hall⟩ := hn.members
  have hmembers : ∀ m ∈ ms.map denull, IsMember m := by
    intro m' hm'
    obtain ⟨m, hm, rfl⟩ := List.mem_map.1 hm'
    exact isMember_denull (hall m hm) (hmember m hm)
  rw [denull, denullAll_eq, unionOf_of_pairwise hmembers (List.pairwise_map.2 hdiff),
    collapse_of_two_le (by simpa using hlen)]

/-! ### Types that need no respelling -/

/-- A normal type without `?T` spells null in one way already. -/
theorem denull_of_optionalFree {t : Ty} (h : OptionalFree t) (hn : NormalOrAbsent t) :
    denull t = t := by
  have hmap : ∀ ts : List Ty, (∀ t ∈ ts, denull t = t) → denullAll ts = ts := by
    intro ts hts
    calc denullAll ts = ts.map denull := denullAll_eq ts
      _ = ts.map id := List.map_congr_left hts
      _ = ts := List.map_id ts
  induction h with
  | atom a => rfl
  | named n => rfl
  | @array e d _ ih =>
      obtain ⟨hd, he, hn⟩ := hn rfl
      rw [denull, ih hn.normalOrAbsent, arrayOf_of_isElement hd he]
  | @generic n ps _ ih =>
      have hps := (hn rfl).params
      rw [denull, hmap ps fun p hp => ih p hp (hps p hp)]
  | @union ms _ ih =>
      have hms := (hn rfl).members.2.2.2
      rw [denull, hmap ms fun m hm => ih m hm (hms m hm).normalOrAbsent, unionOf_of_normal (hn rfl)]
  | undefined => rfl

end Ty

end HintCheck
