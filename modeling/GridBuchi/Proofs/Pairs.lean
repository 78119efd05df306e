/-
# `GridBuchi.Proofs.Pairs` — a state is the pair of its species and its location

A state is one row of words, and its location, if it has one, is the last of
them.  To its users it is something simpler: a list of species, which `set`
writes, and a location or none, which `place?` writes.  Neither touches what
the other writes, and the row holds nothing besides.

What a state is can therefore be told from how it came about, without looking
at the row.  Each component is what was last written there, or what the state
was made with; the location likewise; and how many species there are, and
whether there is a location at all, was decided when the state was made.
States that a product step delivers are no exception: each is a copy of the
candidate, placed at a target.
-/
import GridBuchi.Proofs.Carriers
import GridBuchi.Proofs.History
import GridBuchi.Proofs.Product

namespace GridBuchi

/-! ## Where states come from -/

/-- How a state is made. -/
inductive StateOrigin where
  | lowest (dim : Nat)
  | plain (row : List Word)
  | product (row : List Word) (location : LocationId)

namespace StateOrigin

/-- The state that is made. -/
def state : StateOrigin → State
  | .lowest dim => .zeros dim
  | .plain row => .ofSpecies row
  | .product row location => .product row location

/-- The species it is made with. -/
def species : StateOrigin → List Word
  | .lowest dim => List.replicate dim 0
  | .plain row => row
  | .product row _ => row

/-- The location it is made with. -/
def location? : StateOrigin → Option LocationId
  | .lowest _ | .plain _ => none
  | .product _ location => some location

end StateOrigin

/-- A call that changes a state. -/
inductive StateCall where
  | set (i : Nat) (value : Word)
  | place (location : LocationId)

namespace StateCall

/-- What a call writes to component `i`. -/
def written? (i : Nat) : StateCall → Option Word
  | .set j value => if j = i then some value else none
  | .place _ => none

/-- The location that a call moves to. -/
def placed? : StateCall → Option LocationId
  | .set _ _ => none
  | .place location => some location

/-- What was last written to component `i`. -/
def lastWritten (i : Nat) (calls : List StateCall) : Option Word :=
  (calls.filterMap (written? i)).getLast?

/-- The location that was last moved to. -/
def lastPlaced (calls : List StateCall) : Option LocationId := (calls.filterMap placed?).getLast?

theorem lastWritten_snoc (i : Nat) (calls : List StateCall) (c : StateCall) :
    lastWritten i (calls ++ [c]) = (c.written? i).or (lastWritten i calls) := by
  rw [lastWritten, List.filterMap_append, List.getLast?_append]
  cases h : c.written? i <;> simp [lastWritten, h]

theorem lastPlaced_snoc (calls : List StateCall) (c : StateCall) :
    lastPlaced (calls ++ [c]) = c.placed?.or (lastPlaced calls) := by
  rw [lastPlaced, List.filterMap_append, List.getLast?_append]
  cases h : c.placed? <;> simp [lastPlaced, h]

end StateCall

namespace StateOrigin

open StateCall

/-- The species after some calls: each as it was last written. -/
def speciesAfter (o : StateOrigin) (calls : List StateCall) : List Word :=
  o.species.mapIdx fun i w => (lastWritten i calls).getD w

/-- The location after some calls: the one that was last moved to. -/
def locationAfter (o : StateOrigin) (calls : List StateCall) : Option LocationId :=
  o.location?.map fun l => (lastPlaced calls).getD l

theorem speciesAfter_set (o : StateOrigin) (calls : List StateCall) (i : Nat) (value : Word) :
    o.speciesAfter (calls ++ [.set i value]) = (o.speciesAfter calls).set i value := by
  refine List.ext_getElem? ?_
  intro j
  rw [speciesAfter, List.getElem?_mapIdx, List.getElem?_set, speciesAfter, List.length_mapIdx,
    List.getElem?_mapIdx, lastWritten_snoc, written?]
  by_cases hij : i = j
  · subst hij
    by_cases hi : i < o.species.length
    · simp [hi]
    · simp [hi]
  · simp [hij]

theorem speciesAfter_place (o : StateOrigin) (calls : List StateCall) (l : LocationId) :
    o.speciesAfter (calls ++ [.place l]) = o.speciesAfter calls := by
  simp [speciesAfter, lastWritten_snoc, written?]

theorem locationAfter_set (o : StateOrigin) (calls : List StateCall) (i : Nat) (value : Word) :
    o.locationAfter (calls ++ [.set i value]) = o.locationAfter calls := by
  simp [locationAfter, lastPlaced_snoc, placed?]

theorem locationAfter_place (o : StateOrigin) (calls : List StateCall) (l : LocationId) :
    o.locationAfter (calls ++ [.place l]) = (o.locationAfter calls).map fun _ => l := by
  rw [locationAfter, locationAfter, lastPlaced_snoc]
  cases o.location? <;> rfl

end StateOrigin

/-! ## What one call does to the two views -/

namespace State

variable {s t : State}

theorem set_eq_ok_iff {i : Nat} {value : Word} : (∃ t, s.set i value = .ok t) ↔ i < s.dim := by
  rw [set]
  split
  · next h => simp [h]
  · next h => simp [h]

theorem species_set {i : Nat} {value : Word} (h : s.set i value = .ok t) :
    t.species = s.species.set i value := by
  rw [set] at h
  split at h
  · cases h
    simp only [species, List.take_set]
  · cases h

theorem location?_set {i : Nat} {value : Word} (h : s.set i value = .ok t) :
    t.location? = s.location? := by
  rw [set] at h
  split at h
  · next hi =>
      cases h
      simp only [location?, List.getElem?_set_ne (Nat.ne_of_lt hi)]
  · cases h

theorem species_place? {l : LocationId} (h : s.place? l = some t) : t.species = s.species := by
  rw [place?_eq] at h
  split at h
  · cases h
    exact species_product _ _
  · cases h

/-- A state after a call.  A call that fails leaves it as it was. -/
def after (s : State) : StateCall → State
  | .set i value =>
      match s.set i value with
      | .ok t => t
      | .error _ => s
  | .place l => (s.place? l).getD s

theorem species_after_set (s : State) (i : Nat) (value : Word) :
    (s.after (.set i value)).species = s.species.set i value := by
  rw [after]
  cases h : s.set i value with
  | ok t => exact species_set h
  | error _ =>
      have hi : s.species.length ≤ i := by
        rw [s.length_species]
        refine Nat.le_of_not_lt ?_
        intro hlt
        obtain ⟨t, ht⟩ := set_eq_ok_iff.mpr hlt
        rw [h] at ht
        cases ht
      exact (List.set_eq_of_length_le hi).symm

theorem location?_after_set (s : State) (i : Nat) (value : Word) :
    (s.after (.set i value)).location? = s.location? := by
  rw [after]
  cases h : s.set i value with
  | ok t => exact location?_set h
  | error _ => rfl

theorem species_after_place (s : State) (l : LocationId) :
    (s.after (.place l)).species = s.species := by
  rw [after]
  cases h : s.place? l with
  | none => rfl
  | some t => exact species_place? h

theorem location?_after_place (s : State) (l : LocationId) :
    (s.after (.place l)).location? = s.location?.map fun _ => l := by
  rw [after, place?_eq]
  cases h : s.location? with
  | none => simpa using h
  | some _ => exact location?_product _ _

end State

/-! ## What a state has come to -/

/-- `Arises o calls s`: made as `o` says, the state `s` comes about by
`calls`.  A copy is the state itself.  What a product step delivers has come
about like its candidate, and was then placed at a target of the step. -/
inductive Arises (o : StateOrigin) : List StateCall → State → Prop
  | made : Arises o [] o.state
  | called {calls : List StateCall} {s : State} (c : StateCall) : Arises o calls s →
      Arises o (calls ++ [c]) (s.after c)
  | delivered {calls : List StateCall} {A : Automaton} {cfg : Config} {s candidate q : State}
      {source l : LocationId} {targets : List LocationId} {found : List State} {i : Nat} :
      Arises o calls candidate → s.location? = some source →
      A.successors cfg source s = .ok targets → targets[i]? = some l →
      (A.synchronize cfg s candidate).result = .ok found → found[i]? = some q →
      Arises o (calls ++ [.place l]) q

/-- A product step delivers the candidate, placed at each target. -/
theorem Automaton.getElem?_synchronize {A : Automaton} {cfg : Config} {s candidate : State}
    {source : LocationId} {targets : List LocationId} {found : List State}
    (hs : s.location? = some source) (htargets : A.successors cfg source s = .ok targets)
    (hfound : (A.synchronize cfg s candidate).result = .ok found) (i : Nat) :
    found[i]? = targets[i]?.map fun l => candidate.after (.place l) := by
  obtain ⟨_, ls, hsource, hls, hslot, rfl, -⟩ := synchronize_of_ok hfound
  rw [hs] at hsource
  cases hsource
  rw [htargets] at hls
  cases hls
  rw [List.getElem?_map]
  rcases hslot with rfl | hslot
  · rfl
  · simp only [State.after, State.place?_eq, hslot, if_true, Option.getD_some]

namespace StateOrigin

theorem species_state (o : StateOrigin) : o.state.species = o.species := by
  cases o with
  | lowest dim => simp [state, species, State.zeros, State.ofSpecies, State.species]
  | plain row => simp [state, species, State.ofSpecies, State.species]
  | product row l => exact State.species_product row l

theorem location?_state (o : StateOrigin) : o.state.location? = o.location? := by
  cases o with
  | lowest dim => simp [state, location?, State.zeros, State.ofSpecies, State.location?]
  | plain row => simp [state, location?, State.ofSpecies, State.location?]
  | product row l => exact State.location?_product row l

end StateOrigin

namespace Arises

variable {o : StateOrigin} {calls : List StateCall} {s : State}

/-- One call keeps the two views in step with what has been told. -/
theorem views_after {c : StateCall} (hspecies : s.species = o.speciesAfter calls)
    (hlocation : s.location? = o.locationAfter calls) :
    (s.after c).species = o.speciesAfter (calls ++ [c]) ∧
      (s.after c).location? = o.locationAfter (calls ++ [c]) := by
  cases c with
  | set i value =>
      rw [s.species_after_set, s.location?_after_set, o.speciesAfter_set, o.locationAfter_set,
        hspecies, hlocation]
      exact ⟨rfl, rfl⟩
  | place l =>
      rw [s.species_after_place, s.location?_after_place, o.speciesAfter_place,
        o.locationAfter_place, hspecies, hlocation]
      exact ⟨rfl, rfl⟩

theorem views (h : Arises o calls s) :
    s.species = o.speciesAfter calls ∧ s.location? = o.locationAfter calls := by
  induction h with
  | made =>
      rw [o.species_state, o.location?_state]
      constructor
      · exact (List.ext_getElem? (by simp [StateOrigin.speciesAfter, StateCall.lastWritten])).symm
      · simp [StateOrigin.locationAfter, StateCall.lastPlaced]
  | called c _ ih => exact views_after ih.1 ih.2
  | delivered _ hs htargets hl hfound hq ih =>
      rw [Automaton.getElem?_synchronize hs htargets hfound, hl] at hq
      cases hq
      exact views_after ih.1 ih.2

end Arises

/-! ## The row holds the pair and nothing else -/

namespace State

theorem length_words (s : State) :
    s.words.length = s.dim + if s.location?.isSome then 1 else 0 := by
  rw [s.words_eq, List.length_append, s.length_species]
  cases s.location? <;> rfl

theorem slot_width (s : State) {w : Word} (h : s.words[s.dim]? = some w) :
    w.toNat < UInt32.size := by
  refine s.slot_lt w (List.mem_of_getElem? (i := 0) ?_)
  rw [List.getElem?_drop]
  exact h

theorem eq_iff_views {s t : State} : s = t ↔ s.species = t.species ∧ s.location? = t.location? := by
  constructor
  · rintro rfl
    exact ⟨rfl, rfl⟩
  · rintro ⟨hspecies, hlocation⟩
    exact eq_of_views hspecies hlocation

end State

/-- The state is the pair of its species and its location, and these are as
`calls` have left them. -/
structure IsPairOf (o : StateOrigin) (calls : List StateCall) (s : State) : Prop where
  /-- How many species there are, and whether there is a location, is as the
  state was made. -/
  dim : s.dim = o.species.length
  slot : s.location?.isSome = o.location?.isSome
  /-- The row has a word for each species and one for the location. -/
  row : s.words = o.speciesAfter calls ++ ((o.locationAfter calls).map UInt32.toUInt64).toList
  words : s.words.length = s.dim + if o.location?.isSome then 1 else 0
  width : ∀ w, s.words[s.dim]? = some w → w.toNat < UInt32.size
  /-- A component is what was last written there, or what it was made as. -/
  read : ∀ (j : Nat) (h : j < o.species.length),
    Components.read s j = .ok ((StateCall.lastWritten j calls).getD o.species[j])
  /-- So is the location. -/
  location : s.location? = o.location?.map fun l => (StateCall.lastPlaced calls).getD l
  /-- Writing a species succeeds if it is there, and leaves the location. -/
  set (i : Nat) (value : Word) : ((∃ t, s.set i value = .ok t) ↔ i < s.dim) ∧
    ∀ t, s.set i value = .ok t → t.location? = s.location?
  /-- Moving succeeds if there is a location, and leaves the species. -/
  place (l : LocationId) : ((∃ t, s.place? l = some t) ↔ o.location?.isSome) ∧
    ∀ t, s.place? l = some t → t.species = s.species
  /-- Equal are states that are equal as pairs. -/
  eq (t : State) : s = t ↔ s.species = t.species ∧ s.location? = t.location?
  /-- A plain state and a product state differ even if they hold the same
  words. -/
  ne_of_slot (t : State) : s.words = t.words → s.location?.isSome ≠ t.location?.isSome → s ≠ t

/-- However a state has come about, it is the pair of the species and the
location that its calls have left. -/
theorem state_is_pair {o : StateOrigin} {calls : List StateCall} {s : State}
    (h : Arises o calls s) : IsPairOf o calls s := by
  obtain ⟨hspecies, hlocation⟩ := h.views
  have hdim : s.dim = o.species.length := by
    rw [← s.length_species, hspecies, StateOrigin.speciesAfter, List.length_mapIdx]
  have hslot : s.location?.isSome = o.location?.isSome := by
    rw [hlocation, StateOrigin.locationAfter, Option.isSome_map]
  refine ⟨hdim, hslot, ?_, hslot ▸ s.length_words, fun w => s.slot_width, ?_, hlocation, ?_, ?_, ?_,
    ?_⟩
  · rw [s.words_eq, hspecies, hlocation]
  · intro j hj
    rw [s.read_species, read_list_eq_ok, hspecies, StateOrigin.speciesAfter, List.getElem?_mapIdx,
      List.getElem?_eq_getElem hj]
    rfl
  · intro i value
    exact ⟨State.set_eq_ok_iff, fun t => State.location?_set⟩
  · intro l
    refine ⟨?_, fun t => State.species_place?⟩
    rw [State.place?_eq, ← hslot]
    cases s.location?.isSome <;> simp
  · intro t
    exact State.eq_iff_views
  · rintro t - hne rfl
    exact hne rfl

/-- The species at 0 is written, a write behind the species fails, the state is
moved, and at last it is handed to a product step as the candidate and
delivered at the second of two targets.  A plain state with the same three
words is another state. -/
theorem delivered_state_is_pair :
    Arises (.product [4, 7] 9) [.set 0 5, .set 2 8, .place 3, .place 1] (.product [5, 7] 1) ∧
      IsPairOf (.product [4, 7] 9) [.set 0 5, .set 2 8, .place 3, .place 1] (.product [5, 7] 1) ∧
      (State.product [5, 7] 1).words = (State.ofSpecies [5, 7, 1]).words ∧
      State.product [5, 7] 1 ≠ State.ofSpecies [5, 7, 1] := by
  have hcandidate : Arises (.product [4, 7] 9) [.set 0 5, .set 2 8, .place 3] (.product [5, 7] 3) :=
    .called (.place 3) (.called (.set 2 8) (.called (.set 0 5) .made))
  have htargets : (Automaton.build Automaton.waitForThree).successors ⟨false, false⟩ 0
      (State.product [3] 0) = .ok [0, 1] := rfl
  have hfound : ((Automaton.build Automaton.waitForThree).synchronize ⟨false, false⟩
      (.product [3] 0) (.product [5, 7] 3)).result = .ok [.product [5, 7] 0, .product [5, 7] 1] := rfl
  have h : Arises (.product [4, 7] 9) [.set 0 5, .set 2 8, .place 3, .place 1] (.product [5, 7] 1) :=
    .delivered (i := 1) hcandidate rfl htargets rfl hfound rfl
  have hpair := state_is_pair h
  refine ⟨h, hpair, rfl, hpair.ne_of_slot _ rfl ?_⟩
  decide

end GridBuchi
