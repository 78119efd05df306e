/-
# `GridBuchi.Proofs.Carriers` — guards see the species and nothing else

The location of a product state lies in the same row of words as its
species, directly behind them, and the species alone can also be held as a
list, an array or a vector.  A guard must not notice any of this.

All reading goes through `Components.read`, and whatever is built on it, up
to the successors of a location, depends on what it answers and on nothing
else: two readers that answer alike at every position are `Indistinguishable`,
down to the index and the count in every failure.  So it is enough to show of
each carrier that it reads like the list of its species, which for a product
state says that the location is already outside.
-/
import GridBuchi.Row
import GridBuchi.Proofs.Walk

namespace GridBuchi

variable {α β : Type} [Components α] [Components β] {a : α} {b : β}

/-! ## Reading alike is all that counts -/

/-- No operation that reads components can tell `a` from `b`. -/
structure Indistinguishable {α β : Type} [Components α] [Components β] (a : α) (b : β) : Prop where
  count : Components.count a = Components.count b
  read (i : Nat) : Components.read a i = Components.read b i
  read? (i : Nat) : Components.read? a i = Components.read? b i
  evalTrusted (p : Proposition) : p.evalTrusted a = p.evalTrusted b
  evalChecked (p : Proposition) : p.evalChecked a = p.evalChecked b
  enabledTrusted (t : Transition) : t.enabledTrusted a = t.enabledTrusted b
  enabledChecked (t : Transition) : t.enabledChecked a = t.enabledChecked b
  successors (A : Automaton) (cfg : Config) (id : LocationId) :
    A.successors cfg id a = A.successors cfg id b

/-- A read that is outside both rows names the count of each. -/
theorem Components.count_eq_of_read (h : ∀ i, read a i = read b i) : count a = count b := by
  have ha := read_of_le a (Nat.le_max_left (count a) (count b))
  have hb := read_of_le b (Nat.le_max_right (count a) (count b))
  have hab := h (max (count a) (count b))
  rw [ha, hb] at hab
  injection hab with hab
  injection hab

theorem Components.read?_congr (h : ∀ i, read a i = read b i) (i : Nat) : read? a i = read? b i := by
  rw [read?, read?, count_eq_of_read h, h i]

theorem Proposition.evalChecked_congr (h : ∀ i, Components.read a i = Components.read b i)
    (p : Proposition) : p.evalChecked a = p.evalChecked b := by
  cases p with
  | trivial _ => rfl
  | armed t _ _ =>
      rw [evalChecked, evalChecked, Components.read?_congr h, Components.count_eq_of_read h]

theorem Automaton.successors_congr (h : ∀ i, Components.read a i = Components.read b i)
    (A : Automaton) (cfg : Config) (id : LocationId) :
    A.successors cfg id a = A.successors cfg id b := by
  have htargets : enabledTargets cfg a (A.leaving id) = enabledTargets cfg b (A.leaving id) :=
    enabledTargets_congr_self fun t _ => Transition.enabled_congr cfg h rfl rfl
  rw [successors, successors, htargets]

theorem indistinguishable_of_read (h : ∀ i, Components.read a i = Components.read b i) :
    Indistinguishable a b where
  count := Components.count_eq_of_read h
  read := h
  read? := Components.read?_congr h
  evalTrusted p := congrFun (Proposition.evalTrusted_congr h) p
  evalChecked := Proposition.evalChecked_congr h
  enabledTrusted _ := Transition.enabledTrusted_congr h rfl rfl
  enabledChecked _ := Transition.enabledChecked_congr h rfl rfl
  successors := Automaton.successors_congr h

/-! ## Every carrier reads like the list of its species -/

theorem State.read_species (s : State) (i : Nat) :
    Components.read s i = Components.read s.species i := rfl

theorem read_list_eq_ok {row : List Word} {i : Nat} {w : Word} :
    Components.read row i = .ok w ↔ row[i]? = some w := by
  simp only [Components.read]
  cases row[i]? <;> simp

theorem read_toList_array (row : Array Word) (i : Nat) :
    Components.read row i = Components.read row.toList i := by
  simp only [Components.read, Array.getElem?_toList, Array.length_toList]

theorem read_toList_vector {n : Nat} (row : Vector Word n) (i : Nat) :
    Components.read row i = Components.read row.toList i := by
  simp only [Components.read, Vector.getElem?_toList, Vector.length_toList]

theorem Row.read_species (row : Row) (i : Nat) :
    Components.read row i = Components.read row.species i := by
  cases row with
  | state s => exact s.read_species i
  | list _ => rfl
  | array row => exact read_toList_array row i
  | vector row => exact read_toList_vector row i

/-- `Carries a row`: `a` is a reader whose species are `row`.  A state may be
plain or a product state, at any location. -/
inductive Carries : {α : Type} → [Components α] → α → List Word → Prop
  | state (s : State) : Carries s s.species
  | list (row : List Word) : Carries row row
  | array (row : Array Word) : Carries row row.toList
  | vector {n : Nat} (row : Vector Word n) : Carries row row.toList
  | row (r : Row) : Carries r r.species

theorem Carries.read_eq {row : List Word} (h : Carries a row) (i : Nat) :
    Components.read a i = Components.read row i := by
  cases h with
  | state s => exact s.read_species i
  | list _ => rfl
  | array row => exact read_toList_array row i
  | vector row => exact read_toList_vector row i
  | row r => exact r.read_species i

theorem Carries.count_eq {row : List Word} (h : Carries a row) : Components.count a = row.length :=
  Components.count_eq_of_read h.read_eq

/-- From the number of species on, there is nothing to read: that is where
the location of a product state lies. -/
theorem Carries.read_outside {row : List Word} (h : Carries a row) {i : Nat}
    (hi : row.length ≤ i) :
    Components.read a i = .error (.readOutside row.length i) ∧ Components.read? a i = none := by
  rw [← h.count_eq] at hi ⊢
  exact ⟨Components.read_of_le a hi, if_neg (Nat.not_lt.mpr hi)⟩

/-! ## No guard can tell two carriers of one row apart -/

/-- Two readers with the same species, however each of them holds them, give
the same outcome everywhere.  The position right behind the species is
outside both of them, and it is the species that a failure counts. -/
theorem guards_see_species_only {row : List Word} (ha : Carries a row) (hb : Carries b row) :
    Indistinguishable a b ∧ Components.count a = row.length ∧
      ∀ i, row.length ≤ i →
        Components.read a i = .error (.readOutside row.length i) ∧ Components.read? a i = none := by
  refine ⟨?_, ha.count_eq, fun i hi => ha.read_outside hi⟩
  refine indistinguishable_of_read ?_
  intro i
  rw [ha.read_eq, hb.read_eq]

/-- Two product states that differ in their locations only, and an array. -/
theorem guards_see_species_only_of_products :
    Carries (State.product [4, 7] 0) [4, 7] ∧ Carries (State.product [4, 7] 1) [4, 7] ∧
      Carries (#[4, 7] : Array Word) [4, 7] ∧
      Indistinguishable (State.product [4, 7] 0) (State.product [4, 7] 1) ∧
      Indistinguishable (State.product [4, 7] 1) (#[4, 7] : Array Word) ∧
      Components.read (State.product [4, 7] 1) 2 = .error (.readOutside 2 2) := by
  have h₀ : Carries (State.product [4, 7] 0) [4, 7] := .state (State.product [4, 7] 0)
  have h₁ : Carries (State.product [4, 7] 1) [4, 7] := .state (State.product [4, 7] 1)
  have harray : Carries (#[4, 7] : Array Word) [4, 7] := .array #[4, 7]
  obtain ⟨hproducts, -, -⟩ := guards_see_species_only h₀ h₁
  obtain ⟨hcarriers, -, houtside⟩ := guards_see_species_only h₁ harray
  exact ⟨h₀, h₁, harray, hproducts, hcarriers, (houtside 2 (by decide)).1⟩

end GridBuchi
