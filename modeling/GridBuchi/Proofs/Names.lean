/-
# `GridBuchi.Proofs.Names` — names and their ids, there and back

A list that holds each name once gives a name its place as id.  Going on
with the list disturbs no id that was given.  As long as the list is no
longer than there are ids, and no longer, the way back from an id finds the
name again; the other round trip, from an id to a name to an id, needs no such
bound, because an id that addresses a name is below the width anyway.
-/
import GridBuchi.Names
import Mathlib.Data.List.Nodup

namespace GridBuchi.Names

variable {names : List String} {name : String} {id : UInt32}

/-- One more name comes last among the different names, if it is new. -/
theorem eraseDups_concat (names : List String) (name : String) :
    (names ++ [name]).eraseDups =
      if name ∈ names then names.eraseDups else names.eraseDups ++ [name] := by
  by_cases h : name ∈ names
  · simp [List.eraseDups_append, List.removeAll, h]
  · simp [List.eraseDups_append, List.removeAll, h, List.eraseDups_cons]

/-! ## Ids of names -/

theorem toNat_idAt (i : Nat) : (idAt i).toNat = i % UInt32.size := by
  rw [idAt, UInt32.toNat_ofNat']

theorem toNat_idAt_le (i : Nat) : (idAt i).toNat ≤ i := by
  rw [toNat_idAt]
  exact Nat.mod_le _ _

/-- The first name beyond the width has the id of the first name of all. -/
theorem idAt_size : idAt UInt32.size = 0 := rfl

theorem id?_eq_some_iff :
    id? names name = some id ↔ ∃ i, names.idxOf? name = some i ∧ idAt i = id := by
  simp [id?]

theorem mem_of_id? (h : id? names name = some id) : name ∈ names := by
  by_contra hn
  rw [id?_eq_none_iff.mpr hn] at h
  cases h

theorem exists_id? (h : name ∈ names) : ∃ id, id? names name = some id := by
  cases hid : id? names name with
  | some id => exact ⟨id, rfl⟩
  | none => exact absurd h (id?_eq_none_iff.mp hid)

/-- Names added behind leave an id as it is. -/
theorem id?_append (h : id? names name = some id) (more : List String) :
    id? (names ++ more) name = some id := by
  obtain ⟨i, hi, hid⟩ := id?_eq_some_iff.mp h
  refine id?_eq_some_iff.mpr ⟨i, ?_, hid⟩
  rw [List.idxOf?, List.findIdx?_append]
  rw [List.idxOf?] at hi
  rw [hi]
  rfl

/-- A new name gets the next id, and all others keep theirs. -/
theorem id?_concat {new : String} (hn : new ∉ names) (name : String) :
    id? (names ++ [new]) name = if name = new then some (idAt names.length) else id? names name := by
  by_cases h : name = new
  · subst h
    have hlast : (names ++ [name]).idxOf? name = some names.length := by
      refine List.idxOf?_eq_some_iff.mpr ⟨by simp, by simp, ?_⟩
      intro j hj he
      rw [List.getElem_append_left hj] at he
      exact hn (he ▸ List.getElem_mem hj)
    rw [if_pos rfl, id?, hlast]
    rfl
  · rw [if_neg h]
    cases hid : id? names name with
    | some id => exact id?_append hid _
    | none =>
        rw [id?_eq_none_iff] at hid ⊢
        simp [hid, h]

/-- An id lies below the number of names, whether or not it has wrapped. -/
theorem toNat_lt_of_id? (h : id? names name = some id) : id.toNat < names.length := by
  obtain ⟨i, hi, rfl⟩ := id?_eq_some_iff.mp h
  obtain ⟨hlt, -⟩ := List.idxOf?_eq_some_iff.mp hi
  exact Nat.lt_of_le_of_lt (toNat_idAt_le i) hlt

/-- No id wraps in a list of at most `2 ^ 32` names. -/
theorem toNat_id? (hb : names.length ≤ UInt32.size) (name : String) :
    (id? names name).map UInt32.toNat = names.idxOf? name := by
  cases hi : names.idxOf? name with
  | none => simp [id?, hi]
  | some i =>
      obtain ⟨hlt, -⟩ := List.idxOf?_eq_some_iff.mp hi
      simp only [id?, hi, Option.map_some, toNat_idAt, Option.some.injEq]
      exact Nat.mod_eq_of_lt (Nat.lt_of_lt_of_le hlt hb)

/-! ## There and back -/

theorem nameAt?_of_id? (hb : names.length ≤ UInt32.size) (h : id? names name = some id) :
    nameAt? names id = some name := by
  have hi := toNat_id? hb name
  rw [h, Option.map_some] at hi
  obtain ⟨hlt, he, -⟩ := List.idxOf?_eq_some_iff.mp hi.symm
  rw [nameAt?, List.getElem?_eq_getElem hlt, he]

/-- A name stands first where it stands at all. -/
theorem idxOf?_getElem (hn : names.Nodup) {i : Nat} (h : i < names.length) :
    names.idxOf? names[i] = some i := by
  refine List.idxOf?_eq_some_iff.mpr ⟨h, rfl, ?_⟩
  intro j hj he
  have hij := (List.Nodup.getElem_inj_iff hn).mp he
  omega

theorem id?_of_nameAt? (hn : names.Nodup) (h : nameAt? names id = some name) :
    id? names name = some id := by
  obtain ⟨hlt, rfl⟩ := List.getElem?_eq_some_iff.mp h
  exact id?_eq_some_iff.mpr ⟨id.toNat, idxOf?_getElem hn hlt, UInt32.ofNat_toNat⟩

/-- Names are found again through their ids as long as no id has wrapped, and
no longer. -/
theorem found_again_iff (hn : names.Nodup) :
    (∀ name ∈ names, ∃ id, id? names name = some id ∧ nameAt? names id = some name) ↔
      names.length ≤ UInt32.size := by
  constructor
  · intro hfound
    by_contra hlong
    have hlt : UInt32.size < names.length := Nat.lt_of_not_le hlong
    have hpos : 0 < names.length := Nat.lt_of_le_of_lt (Nat.zero_le _) hlt
    -- the name at place `2 ^ 32` is found at place 0
    obtain ⟨id, hid, hname⟩ := hfound names[UInt32.size] (List.getElem_mem hlt)
    have hzero : id? names names[UInt32.size] = some 0 :=
      id?_eq_some_iff.mpr ⟨_, idxOf?_getElem hn hlt, idAt_size⟩
    rw [hzero] at hid
    cases hid
    rw [nameAt?, UInt32.toNat_zero, List.getElem?_eq_getElem hpos, Option.some.injEq,
      hn.getElem_inj_iff] at hname
    cases hname
  · intro hb name hmem
    obtain ⟨id, hid⟩ := exists_id? hmem
    exact ⟨id, hid, nameAt?_of_id? hb hid⟩

end GridBuchi.Names
