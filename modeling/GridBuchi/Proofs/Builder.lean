/-
# `GridBuchi.Proofs.Builder` — building one call at a time

An automaton is never written down, it is built: from the empty one by a
list of calls, some of which may be refused.  `Change` says once and for all
what a call can do to an automaton, one constructor for each way it can go,
and `change_after` that nothing else happens.  Every invariant of the builder
is read off it.

The invariant that all of exploration rests on is `WellFormed`: names are
different, and every id an automaton holds is the id *it* gives to the name
that belongs there.  It holds with any number of locations.
-/
import GridBuchi.Automaton
import GridBuchi.Proofs.Names
import Mathlib.Data.List.Induction

namespace GridBuchi

/-- A call to the builder of an automaton. -/
inductive BuilderCall where
  | addLocation (name : String)
  | setInitial (name : String)
  | setAccepting (name : String)
  | addTransition (t : Transition)

/-- The locations a call expects to find. -/
def BuilderCall.needs : BuilderCall → List String
  | .addLocation _ => []
  | .setInitial name => [name]
  | .setAccepting name => [name]
  | .addTransition t => [t.source, t.target]

namespace Automaton

/-- The automaton an answer brings along; a refusal brings none. -/
def afterAnswer {β : Type} (A : Automaton) : Except AutomatonError (β × Automaton) → Automaton
  | .ok (_, B) => B
  | .error _ => A

/-- The automaton after a call.  A refused call leaves it as it was. -/
def after (A : Automaton) : BuilderCall → Automaton
  | .addLocation name => (A.addLocation name).2
  | .setInitial name => A.afterAnswer (A.setInitial name)
  | .setAccepting name => A.afterAnswer (A.setAccepting name)
  | .addTransition t => A.afterAnswer (A.addTransition t).result

/-- The automaton that a list of calls builds from nothing. -/
def build (calls : List BuilderCall) : Automaton := calls.foldl after empty

theorem build_snoc (calls : List BuilderCall) (c : BuilderCall) :
    build (calls ++ [c]) = (build calls).after c := by
  rw [build, List.foldl_append]
  rfl

/-! ## What a call can do -/

/-- `Change A c B`: the call `c` turns `A` into `B`. -/
inductive Change (A : Automaton) : BuilderCall → Automaton → Prop
  | refused {c : BuilderCall} {name : String} :
      name ∈ c.needs → name ∉ A.names → Change A c A
  | known {name : String} : name ∈ A.names → Change A (.addLocation name) A
  | location {name : String} : name ∉ A.names →
      Change A (.addLocation name) { A with locations := A.locations ++ [{ name }] }
  | initial {name : String} {id : LocationId} : A.id? name = some id →
      Change A (.setInitial name) { A with initial := some id }
  | accepting {name : String} {id : LocationId} : A.id? name = some id →
      Change A (.setAccepting name)
        { A with locations := A.locations.modify id.toNat (fun l => { l with accepting := true }) }
  | transition {t : Transition} {i j : LocationId} :
      A.id? t.source = some i → A.id? t.target = some j →
      Change A (.addTransition t)
        { A with transitions := A.transitions ++ [{ t with sourceId := i, targetId := j }] }

theorem resolve_of_id? {A : Automaton} {name : String} {id : LocationId}
    (h : A.id? name = some id) : A.resolve name = .ok id := by
  simp only [resolve, h]

theorem resolve_unknown {A : Automaton} {name : String} (h : A.id? name = none) :
    A.resolve name = .error (.unknownLocation name) := by
  simp only [resolve, h]

/-- Resolving a transition replaces its two ids. -/
theorem exists_ids_of_resolveTransition {A : Automaton} {t u : Transition}
    (h : A.resolveTransition t = .ok u) : ∃ i j, u = { t with sourceId := i, targetId := j } := by
  rw [resolveTransition] at h
  cases hs : A.resolve t.source with
  | error e =>
      rw [hs] at h
      cases h
  | ok i =>
      cases ht : A.resolve t.target with
      | error e =>
          rw [hs, ht] at h
          cases h
      | ok j =>
          rw [hs, ht] at h
          cases h
          exact ⟨i, j, rfl⟩

/-- There are two ways for a transition not to be added, and the source is
looked up first. -/
theorem resolveTransition_eq_error_iff {A : Automaton} {t : Transition} {e : AutomatonError} :
    A.resolveTransition t = .error e ↔
      t.source ∉ A.names ∧ e = .unknownLocation t.source ∨
      t.source ∈ A.names ∧ t.target ∉ A.names ∧ e = .unknownLocation t.target := by
  rw [resolveTransition]
  by_cases hs : t.source ∈ A.names
  · obtain ⟨i, hi⟩ := Names.exists_id? hs
    rw [resolve_of_id? hi]
    by_cases ht : t.target ∈ A.names
    · obtain ⟨j, hj⟩ := Names.exists_id? ht
      rw [resolve_of_id? hj]
      simp [hs, ht, bind, Except.bind, pure, Except.pure]
    · rw [resolve_unknown (Names.id?_eq_none_iff.mpr ht)]
      simp [hs, ht, bind, Except.bind, eq_comm]
  · rw [resolve_unknown (Names.id?_eq_none_iff.mpr hs)]
    simp [hs, bind, Except.bind, eq_comm]

theorem result_addTransition (A : Automaton) (t : Transition) :
    (A.addTransition t).result = (A.resolveTransition t).map fun u =>
      (A.transitions.length, { A with transitions := A.transitions ++ [u] }) := by
  rw [addTransition]
  cases A.resolveTransition t <;> rfl

theorem result_addTransition_eq_error_iff {A : Automaton} {t : Transition} {e : AutomatonError} :
    (A.addTransition t).result = .error e ↔ A.resolveTransition t = .error e := by
  rw [result_addTransition]
  cases A.resolveTransition t <;> simp [Except.map]

theorem events_addTransition_of_error {A : Automaton} {t : Transition} {e : AutomatonError}
    (h : (A.addTransition t).result = .error e) : (A.addTransition t).events = [] := by
  rw [addTransition, result_addTransition_eq_error_iff.mp h]
  rfl

theorem not_mem_names {A : Automaton} {name : String} (h : A.id? name = none) : name ∉ A.names :=
  Names.id?_eq_none_iff.mp h

theorem change_after (A : Automaton) (c : BuilderCall) : Change A c (A.after c) := by
  cases c with
  | addLocation name =>
      cases h : A.id? name with
      | some id =>
          rw [after, addLocation, h]
          exact .known (Names.mem_of_id? h)
      | none =>
          rw [after, addLocation, h]
          exact .location (not_mem_names h)
  | setInitial name =>
      cases h : A.id? name with
      | some id =>
          rw [after, setInitial, resolve_of_id? h]
          exact .initial h
      | none =>
          rw [after, setInitial, resolve_unknown h]
          exact .refused (List.mem_singleton_self _) (not_mem_names h)
  | setAccepting name =>
      cases h : A.id? name with
      | some id =>
          rw [after, setAccepting, resolve_of_id? h]
          exact .accepting h
      | none =>
          rw [after, setAccepting, resolve_unknown h]
          exact .refused (List.mem_singleton_self _) (not_mem_names h)
  | addTransition t =>
      cases hs : A.id? t.source with
      | none =>
          rw [after, addTransition, resolveTransition, resolve_unknown hs]
          exact .refused List.mem_cons_self (not_mem_names hs)
      | some i =>
          cases ht : A.id? t.target with
          | none =>
              rw [after, addTransition, resolveTransition, resolve_of_id? hs, resolve_unknown ht]
              exact .refused (List.mem_cons_of_mem _ List.mem_cons_self) (not_mem_names ht)
          | some j =>
              rw [after, addTransition, resolveTransition, resolve_of_id? hs, resolve_of_id? ht]
              exact .transition hs ht

/-- Marking a location leaves all names as they are. -/
theorem map_name_mark (ls : List Location) (i : Nat) :
    (ls.modify i fun l => { l with accepting := true }).map Location.name =
      ls.map Location.name := by
  refine List.ext_getElem? ?_
  intro j
  rw [List.getElem?_map, List.getElem?_map, List.getElem?_modify]
  split
  · cases ls[j]? <;> rfl
  · simp

/-- A call adds its new name behind the others, and only `addLocation` has
one. -/
theorem Change.names {A B : Automaton} {c : BuilderCall} (h : Change A c B) :
    B.names = A.names ∨ ∃ name, c = .addLocation name ∧ name ∉ A.names ∧
      B.names = A.names ++ [name] := by
  cases h with
  | refused _ _ | known _ | initial _ | transition _ _ => exact Or.inl rfl
  | location hn => exact Or.inr ⟨_, rfl, hn, by simp [Automaton.names]⟩
  | accepting _ => exact Or.inl (map_name_mark A.locations _)

/-- Only adding a transition changes the transitions. -/
theorem Change.transitions {A B : Automaton} {c : BuilderCall} (h : Change A c B)
    (hc : ∀ t, c ≠ .addTransition t) : B.transitions = A.transitions := by
  cases h with
  | refused _ _ | known _ | location _ | initial _ | accepting _ => rfl
  | transition _ _ => exact absurd rfl (hc _)

/-- No call changes an id that a name has. -/
theorem Change.id? {A B : Automaton} {c : BuilderCall} (h : Change A c B) {name : String}
    {id : LocationId} (hid : A.id? name = some id) : B.id? name = some id := by
  rcases h.names with hn | ⟨_, -, -, hn⟩
  · rw [Automaton.id?, hn]; exact hid
  · rw [Automaton.id?, hn]; exact Names.id?_append hid _

/-! ## The invariant -/

/-- Names are different, and all ids are those of the names they stand
for. -/
structure WellFormed (A : Automaton) : Prop where
  nodup : A.names.Nodup
  initial : ∀ id ∈ A.initial, ∃ name, A.id? name = some id
  source : ∀ t ∈ A.transitions, A.id? t.source = some t.sourceId
  target : ∀ t ∈ A.transitions, A.id? t.target = some t.targetId

theorem WellFormed.change {A B : Automaton} {c : BuilderCall} (h : A.WellFormed)
    (hc : Change A c B) : B.WellFormed := by
  have hid : ∀ {name id}, A.id? name = some id → B.id? name = some id := hc.id?
  have hnodup : B.names.Nodup := by
    rcases hc.names with hn | ⟨name, -, hnew, hn⟩
    · rw [hn]; exact h.nodup
    · rw [hn]
      refine List.nodup_append.mpr ⟨h.nodup, by simp, ?_⟩
      intro a ha b hb he
      rw [List.mem_singleton.mp hb] at he
      exact hnew (he ▸ ha)
  cases hc with
  | refused _ _ | known _ => exact h
  | location _ | accepting _ =>
      refine ⟨hnodup, ?_, ?_, ?_⟩
      · intro id hi
        obtain ⟨name, hname⟩ := h.initial id hi
        exact ⟨name, hid hname⟩
      · intro t ht
        exact hid (h.source t ht)
      · intro t ht
        exact hid (h.target t ht)
  | initial hi =>
      refine ⟨hnodup, ?_, h.source, h.target⟩
      intro id he
      cases he
      exact ⟨_, hi⟩
  | @transition t i j hs ht =>
      refine ⟨hnodup, h.initial, ?_, ?_⟩
      · intro u hu
        rcases List.mem_append.mp hu with hu | hu
        · exact h.source u hu
        · rw [List.mem_singleton.mp hu]
          exact hs
      · intro u hu
        rcases List.mem_append.mp hu with hu | hu
        · exact h.target u hu
        · rw [List.mem_singleton.mp hu]
          exact ht

theorem wellFormed_build (calls : List BuilderCall) : (build calls).WellFormed := by
  induction calls using List.reverseRecOn with
  | nil => exact ⟨List.nodup_nil, by simp [build, empty], by simp [build, empty],
      by simp [build, empty]⟩
  | append_singleton calls c ih =>
      rw [build_snoc]
      exact ih.change (change_after _ c)

/-! ## Ids of a well-formed automaton -/

section Ids

variable {A : Automaton}

theorem length_names (A : Automaton) : A.names.length = A.locationCount := by
  simp [names, locationCount]

theorem location_eq_ok_iff {id : LocationId} {l : Location} :
    A.location id = .ok l ↔ A.locations[id.toNat]? = some l := by
  rw [location]
  cases A.locations[id.toNat]? with
  | some m => simp
  | none => simp

theorem location_of_lt {id : LocationId} (h : id.toNat < A.locationCount) :
    A.location id = .ok A.locations[id.toNat] :=
  location_eq_ok_iff.mpr (List.getElem?_eq_getElem h)

theorem location_of_le {id : LocationId} (h : A.locationCount ≤ id.toNat) :
    A.location id = .error (.invalidLocation id A.locationCount) := by
  rw [location, List.getElem?_eq_none h]

theorem lt_of_id? {name : String} {id : LocationId} (h : A.id? name = some id) :
    id.toNat < A.locationCount :=
  A.length_names ▸ Names.toNat_lt_of_id? h

/-- The id of a new location lies below the new number of locations, even if
it has wrapped. -/
theorem addLocation_lt (A : Automaton) (name : String) :
    (A.addLocation name).1.toNat < (A.addLocation name).2.locationCount := by
  rw [addLocation]
  cases h : A.id? name with
  | some id => exact lt_of_id? h
  | none =>
      have hle := Names.toNat_idAt_le A.locationCount
      simp only [locationCount, List.length_append, List.length_singleton] at hle ⊢
      omega

theorem nameOf_eq_ok_iff {id : LocationId} {name : String} :
    A.nameOf id = .ok name ↔ Names.nameAt? A.names id = some name := by
  rw [nameOf, location, Names.nameAt?, names, List.getElem?_map]
  cases A.locations[id.toNat]? with
  | some l => simp [Except.map]
  | none => simp [Except.map]

theorem nameOf_of_id? (hb : A.locationCount ≤ UInt32.size) {name : String} {id : LocationId}
    (h : A.id? name = some id) : A.nameOf id = .ok name :=
  nameOf_eq_ok_iff.mpr (Names.nameAt?_of_id? (A.length_names ▸ hb) h)

theorem WellFormed.id?_of_nameOf (hA : A.WellFormed) {name : String} {id : LocationId}
    (h : A.nameOf id = .ok name) : A.id? name = some id :=
  Names.id?_of_nameAt? hA.nodup (nameOf_eq_ok_iff.mp h)

theorem exists_nameOf {id : LocationId} (h : id.toNat < A.locationCount) :
    ∃ name, A.nameOf id = .ok name :=
  ⟨A.locations[id.toNat].name, by rw [nameOf, location_of_lt h]; rfl⟩

end Ids
end Automaton
end GridBuchi
