/-
**The depth of arrays.**

An array that is put into another one adds its levels to those of the other one.  Where depths are
machine words, the sum may not fit and lose its upper part, down to an array without any level.
This module shows that the sum is the right one as long as it fits.  It always fits where types are
read, because a type has no more levels than its text has characters, and no text is that long.

Main definitions:

* `HintCheck.Ty.levels` — the array levels on the outside of a type;
* `HintCheck.Ty.LevelsWithin` — a bound for the levels of all alternatives of a type.

Main results:

* `HintCheck.Ty.arrayOfWord_eq` — a sum that fits into a word is right;
* `HintCheck.Ty.levelsWithin_read` — a type has no more levels than its text has characters;
* `HintCheck.Ty.readMember_of_trim_word`, `HintCheck.Ty.arrayOf_valueType_word` — **the reader may
  count in words.**
-/

import HintCheck.Proofs.Ty.Reading
import HintCheck.Proofs.Ty.Union

set_option relaxedAutoImplicit false
set_option autoImplicit false

namespace HintCheck

namespace Ty

open Text

/-! ### Levels -/

/-- The array levels on the outside of a type. -/
def levels : Ty → Nat
  | array _ d => d
  | _ => 0

theorem levels_arrayOf (e : Ty) (d : Nat) : levels (arrayOf e d) = levels e + d := by
  rcases Nat.eq_zero_or_pos d with rfl | hd
  · rfl
  · cases e <;> simp [arrayOf, arrayBy, levels, Nat.ne_of_gt hd]

/-- In words, the levels of an element are added up to a multiple of the number of words. -/
theorem arrayOfWord_array (inner : Ty) (inside : Nat) {d : UInt64} (hd : d.toNat ≠ 0) :
    arrayOfWord (array inner inside) d = array inner ((inside + d.toNat) % UInt64.size) := by
  rw [arrayOfWord, arrayBy, if_neg hd]
  simp [UInt64.size]

/-- A sum of levels that fits into a word is right. -/
theorem arrayOfWord_eq {e : Ty} {d : UInt64} (h : levels e + d.toNat < UInt64.size) :
    arrayOfWord e d = arrayOf e d.toNat := by
  cases e with
  | array inner inside =>
      by_cases hd : d.toNat = 0
      · rw [arrayOfWord, arrayOf, arrayBy, arrayBy, if_pos hd, if_pos hd]
      · have hfits : inside + d.toNat < UInt64.size := h
        rw [arrayOfWord_array inner inside hd, Nat.mod_eq_of_lt hfits, arrayOf, arrayBy, if_neg hd]
  | _ => rfl

/-! ### Alternatives -/

/-- No alternative of a type has more than a number of levels. -/
def LevelsWithin (n : Nat) (t : Ty) : Prop := ∀ m ∈ flatten t, levels m ≤ n

variable {n k : Nat} {t e : Ty} {ts : List Ty}

theorem LevelsWithin.mono (h : LevelsWithin n t) (hle : n ≤ k) : LevelsWithin k t :=
  fun m hm => Nat.le_trans (h m hm) hle

/-- A type that is its only alternative. -/
theorem levelsWithin_of_isMember (ht : IsMember t) (h : levels t ≤ n) : LevelsWithin n t := by
  intro m hm
  rw [flatten_of_isMember ht] at hm
  rw [List.mem_singleton.1 hm]
  exact h

theorem LevelsWithin.levels_le (h : LevelsWithin n t) : levels t ≤ n := by
  cases t with
  | array e d => exact h (array e d) (by simp [flatten])
  | _ => exact Nat.zero_le n

theorem levelsWithin_unionOf (h : ∀ t ∈ ts, LevelsWithin n t) : LevelsWithin n (unionOf ts) := by
  intro m hm
  rw [flatten_unionOf] at hm
  obtain ⟨t, ht, hm⟩ := mem_flattenAll_iff.1 (mem_of_mem_dedup hm)
  exact h t ht m hm

/-- Null has no levels. -/
theorem levelsWithin_null (n : Nat) : LevelsWithin n (atom .null) :=
  levelsWithin_of_isMember trivial (Nat.zero_le n)

theorem LevelsWithin.optional (h : LevelsWithin n t) : LevelsWithin n (optional t) := by
  intro m hm
  rcases List.mem_append.1 hm with hm | hm
  · exact h m hm
  · exact levelsWithin_null n m hm

theorem LevelsWithin.nullable (h : LevelsWithin n t) : LevelsWithin n (nullable t) := by
  cases t with
  | atom a => cases a <;> first | exact h | exact h.optional
  | union ms =>
      rw [Ty.nullable]
      split
      · exact h
      · exact levelsWithin_unionOf (by simpa using ⟨h, levelsWithin_null n⟩)
  | optional t => exact h
  | undefined => exact h
  | _ => exact h.optional

/-- Each array level takes one more. -/
theorem LevelsWithin.arrayOf (h : LevelsWithin n e) {d : Nat} (hle : n + d ≤ k) :
    LevelsWithin k (arrayOf e d) := by
  rcases Nat.eq_zero_or_pos d with rfl | hd
  · exact h.mono hle
  · obtain ⟨e', d', harray⟩ := exists_arrayOf_eq hd e
    have hlevels := levels_arrayOf e d
    have hinside := h.levels_le
    rw [harray] at hlevels ⊢
    exact levelsWithin_of_isMember trivial (by omega)

/-- The types that keywords stand for have no levels. -/
theorem levelsWithin_of_keyword {name : Text} (h : keyword name = some t) : LevelsWithin n t := by
  have hall : ∀ row ∈ keywords, LevelsWithin 0 row.2 := by
    simp [keywords, LevelsWithin, flatten, flattenAll, levels]
  obtain ⟨row, hrow, rfl⟩ := Option.map_eq_some_iff.1 h
  exact (hall row (List.mem_of_find?_eq_some hrow)).mono (Nat.zero_le n)

/-! ### What is read -/

/-- The values of a container have the levels that one of its parameters has. -/
theorem levelsWithin_valueType {params : List (Text × Ty)}
    (h : ∀ p ∈ params, LevelsWithin n p.2) : LevelsWithin n (valueType params) := by
  have hmixed : LevelsWithin n (atom .mixed) := levelsWithin_of_isMember trivial (Nat.zero_le n)
  unfold valueType
  split
  · next raw t hlast =>
    split
    · exact hmixed
    · exact h _ (List.mem_of_getLast? hlast)
  · exact hmixed

/-- Each step of the reader keeps to the length of the part that it reads. -/
theorem keptByReading_levelsWithin (text : Text) :
    KeptByReading text fun part t => LevelsWithin part.length t where
  widen hpart h := h.mono hpart.length_le
  absent _ := nofun
  builtin part a := levelsWithin_of_isMember trivial (Nat.zero_le part.length)
  word {part} _ _ := by
    cases hkey : keyword part with
    | none => exact levelsWithin_of_isMember trivial (Nat.zero_le part.length)
    | some t => exact levelsWithin_of_keyword hkey
  params {part name tail params} hname h := by
    have hlength := length_of_named? hname
    have hgeneric : LevelsWithin part.length (generic name (params.map (·.2))) :=
      levelsWithin_of_isMember trivial (Nat.zero_le part.length)
    unfold ofParams
    split
    · -- a parameter is shorter than the whole, which makes room for the level of the container
      have hvalue : LevelsWithin (part.length - 1) (valueType params) :=
        levelsWithin_valueType fun p hp => (h p hp).2.mono (Nat.le_sub_one_of_lt (h p hp).1)
      exact hvalue.arrayOf (by omega)
    · split
      · exact hgeneric
      · next hkey => exact levelsWithin_of_keyword hkey
      · exact hgeneric
  unclosed {part _ _} _ _ := levelsWithin_of_isMember trivial (Nat.zero_le part.length)
  shape {part name tail} _ hname := by
    have hlength := length_of_named? hname
    unfold ofShape
    split
    · exact levelsWithin_of_isMember trivial (by rw [levels_arrayOf]; simp only [levels]; omega)
    · split
      · exact levelsWithin_of_isMember trivial (Nat.zero_le part.length)
      · exact levelsWithin_of_isMember trivial (Nat.zero_le part.length)
  callable {part name tail} _ _ := by
    unfold ofCallable
    split
    · exact levelsWithin_of_isMember trivial (Nat.zero_le part.length)
    · exact levelsWithin_of_isMember trivial (Nat.zero_le part.length)
  unionOf h := levelsWithin_unionOf h
  nullable h := h.nullable
  arrayOf hle _ h := h.arrayOf hle

/-- A type has no more levels than its text has characters. -/
theorem levelsWithin_read (cs : Text) : LevelsWithin cs.length (read cs) :=
  (keptByReading_levelsWithin cs).read

theorem levelsWithin_readBase (cs : Text) : LevelsWithin cs.length (readBase cs) :=
  (keptByReading_levelsWithin cs).readBase (List.infix_refl cs) fun part _ _ =>
    levelsWithin_read part

/-! ### Counting in words -/

/-- **The reader may count array brackets in words**, on any text whose length fits into a word. -/
theorem readMember_of_trim_word {cs rest : Text} {c : Char} (hfits : cs.length < UInt64.size)
    (h : trim cs = c :: rest) (hc : c ≠ '?') :
    readMember cs = match (arrayMarks (c :: rest)).1 with
      | [] => undefined
      | base => match readBase base with
        | undefined => undefined
        | element => arrayOfWord element (UInt64.ofNat (arrayMarks (c :: rest)).2) := by
  have hmarks := length_add_arrayMarks_le (c :: rest)
  have htrim := length_trim_le cs
  have hlevels := (levelsWithin_readBase (arrayMarks (c :: rest)).1).levels_le
  rw [h] at htrim
  have hword : (UInt64.ofNat (arrayMarks (c :: rest)).2).toNat = (arrayMarks (c :: rest)).2 :=
    UInt64.toNat_ofNat_of_lt' (by omega)
  have hsum := arrayOfWord_eq (e := readBase (arrayMarks (c :: rest)).1)
    (d := UInt64.ofNat (arrayMarks (c :: rest)).2) (by omega)
  rw [hword] at hsum
  rw [readMember_of_trim h hc]
  cases hbase : (arrayMarks (c :: rest)).1 with
  | nil => rfl
  | cons b base =>
      rw [hbase] at hsum
      cases helement : readBase (b :: base) with
      | undefined => simp only [helement]
      | _ =>
          rw [helement] at hsum
          simp only [helement, hsum]

/-- So may it where it counts the level of a container. -/
theorem arrayOf_valueType_word {inside : Text} (hfits : inside.length + 1 < UInt64.size) :
    let params := (splitTop ',' inside).map fun part => (part, read part)
    arrayOf (valueType params) 1 = arrayOfWord (valueType params) 1 := by
  intro params
  have hparams : ∀ p ∈ params, LevelsWithin inside.length p.2 := by
    intro p hp
    obtain ⟨part, hpart, rfl⟩ := List.mem_map.1 hp
    exact (levelsWithin_read part).mono (infix_of_mem_splitTop hpart).length_le
  have hlevels := (levelsWithin_valueType hparams).levels_le
  have hsum : levels (valueType params) + (1 : UInt64).toNat < UInt64.size := by
    rw [UInt64.toNat_one]
    omega
  exact (arrayOfWord_eq hsum).symm

end Ty

end HintCheck
