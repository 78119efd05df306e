/-
# `GridBuchi.Proofs.Tables` — tables that stay in step

The tables of a registry or of an automaton hold some things twice: a name
and its id stand in two tables, a location in three.  `Indexes` and
`Represents` say what it means for them to be in step with each other, by
saying which registry or automaton they stand for.

They are in step at the start, and every call of the builder keeps them so and
answers as if there were only that automaton.  There is one lemma for each
call, which says both; what holds along a whole list of calls is an induction
over them.  In particular an access that is not checked finds its entry, which
is not a matter of ids being exact.  An id that has wrapped is small.
-/
import GridBuchi.Automaton.Tables
import GridBuchi.Registry
import GridBuchi.Proofs.Alike
import GridBuchi.Proofs.Builder

namespace GridBuchi

/-! ## Names and ids -/

namespace NameTable

variable {t : NameTable} {known : List String}

/-- The tables have these names, each under the id that a search would
give. -/
structure Indexes (t : NameTable) (known : List String) : Prop where
  names : t.names = known
  id? : ∀ name, t.id? name = Names.id? known name

theorem indexes_empty : empty.Indexes [] := ⟨rfl, fun _ => rfl⟩

theorem Indexes.push (h : t.Indexes known) {new : String} (hn : new ∉ known) :
    (t.push new).Indexes (known ++ [new]) where
  names := by rw [NameTable.push, h.names]
  id? name := by
    have hid : t.ids.get? name = Names.id? known name := h.id? name
    rw [NameTable.id?, NameTable.push, Slots.get?_put, Names.id?_concat hn, h.names, hid]

theorem Indexes.size (h : t.Indexes known) : t.size = known.length := by
  rw [NameTable.size, h.names]

/-- Registering a name keeps the tables in step with a registry, and gives the
same id. -/
theorem Indexes.register {r : Registry} (h : t.Indexes r.names) (name : String) :
    (t.register name).1 = (r.register name).1 ∧
      (t.register name).2.Indexes (r.register name).2.names := by
  have hid : t.id? name = r.id? name := h.id? name
  rw [NameTable.register, Registry.register, hid]
  cases hr : r.id? name with
  | some id => exact ⟨rfl, h⟩
  | none => exact ⟨congrArg Names.idAt h.size, h.push (Names.id?_eq_none_iff.mp hr)⟩

/-- The tables answer every question as the registry does. -/
structure Refines (t : NameTable) (r : Registry) : Prop where
  id? (name : String) : t.id? name = r.id? name
  name? (id : SpeciesId) : t.name? id = r.name? id
  size : t.size = r.size
  entries : t.entries = r.entries
  register (name : String) : (t.register name).1 = (r.register name).1

theorem Indexes.refines {r : Registry} (h : t.Indexes r.names) : t.Refines r where
  id? := h.id?
  name? id := by rw [NameTable.name?, h.names]; rfl
  size := h.size
  entries := by rw [NameTable.entries, h.names]; rfl
  register name := (h.register name).1

/-- The tables of a registry, from whatever history of names. -/
theorem ofNames_refines (history : List String) :
    (ofNames history).Indexes (Registry.ofNames history).names ∧
      (ofNames history).Refines (Registry.ofNames history) := by
  have hindexes : (ofNames history).Indexes (Registry.ofNames history).names := by
    induction history using List.reverseRecOn with
    | nil => exact indexes_empty
    | append_singleton history name ih =>
        rw [ofNames, Registry.ofNames, Registry.registerAll, List.foldl_append, List.foldl_append]
        exact (ih.register name).2
  exact ⟨hindexes, hindexes.refines⟩

end NameTable

/-! ## Automata -/

namespace Automaton.Tables

variable {T : Tables} {A : Automaton}

/-- The tables are those of the automaton. -/
structure Represents (T : Tables) (A : Automaton) : Prop where
  index : T.toNameTable.Indexes A.names
  accepting : T.accepting = A.locations.map Location.accepting
  initial : T.initial = A.initial
  transitions : T.transitions = A.transitions

/-- Both answer the same, and the tables are those of the automaton after
that. -/
def SameAnswer {α : Type} (x : α × Tables) (y : α × Automaton) : Prop :=
  x.1 = y.1 ∧ x.2.Represents y.2

/-- Every id that the tables hold or hand out is an index into the names, and
so into the marks. -/
structure InRange (T : Tables) : Prop where
  marks : T.accepting.length = T.names.length
  named {name : String} {id : LocationId} : T.id? name = some id → id.toNat < T.size
  added (name : String) : (T.addLocation name).1.toNat < (T.addLocation name).2.size
  initial : ∀ id ∈ T.initial, id.toNat < T.size
  transitions : ∀ t ∈ T.transitions, t.sourceId.toNat < T.size ∧ t.targetId.toNat < T.size

theorem represents_empty : empty.Represents Automaton.empty :=
  ⟨NameTable.indexes_empty, rfl, rfl, rfl⟩

/-! ### Accesses that are not checked -/

theorem entry_eq_ok_iff {α : Type} {table : List α} {i : Nat} {a : α} :
    entry table i = .ok a ↔ table[i]? = some a := by
  rw [entry]
  cases table[i]? <;> simp

theorem map_accepting_mark (ls : List Location) (i : Nat) :
    (ls.modify i fun l => { l with accepting := true }).map Location.accepting =
      (ls.map Location.accepting).set i true := by
  refine List.ext_getElem? ?_
  intro j
  rw [List.getElem?_map, List.getElem?_modify, List.getElem?_set, List.getElem?_map]
  by_cases hij : i = j
  · subst hij
    cases hl : ls[i]? with
    | none => simp [List.getElem?_eq_none_iff.mp hl]
    | some l => simp [(List.getElem?_eq_some_iff.mp hl).1]
  · simp [hij]

theorem overwrite_of_lt {α : Type} {table : List α} {i : Nat} (h : i < table.length) (a : α) :
    overwrite table i a = .ok (table.set i a) := if_pos h

namespace Represents

variable (h : T.Represents A)
include h

theorem size : T.size = A.locationCount := by
  rw [h.index.size, length_names]

theorem resolve (name : String) : T.resolve name = A.resolve name := by
  have hid : T.id? name = A.id? name := h.index.id? name
  rw [Tables.resolve, Automaton.resolve, hid]
  rfl

theorem check_of_lt {id : LocationId} (hid : id.toNat < A.locationCount) :
    T.check id = .ok () := by
  rw [check, h.size, if_pos hid]

theorem check_of_le {id : LocationId} (hid : A.locationCount ≤ id.toNat) :
    T.check id = .error (.invalidLocation id A.locationCount) := by
  rw [check, h.size, if_neg (Nat.not_lt.mpr hid)]

/-- An id that has been checked has a name in the one table ... -/
theorem entry_names {i : Nat} {l : Location} (hl : A.locations[i]? = some l) :
    entry T.names i = .ok l.name := by
  rw [entry_eq_ok_iff, h.index.names, names, List.getElem?_map, hl]
  rfl

/-- ... and a mark in the other. -/
theorem entry_accepting {i : Nat} {l : Location} (hl : A.locations[i]? = some l) :
    entry T.accepting i = .ok l.accepting := by
  rw [entry_eq_ok_iff, h.accepting, List.getElem?_map, hl]
  rfl

/-! ### Queries -/

theorem nameOf (id : LocationId) : T.nameOf id = (A.nameOf id).mapError .reported := by
  rw [Tables.nameOf, Automaton.nameOf]
  rcases Nat.lt_or_ge id.toNat A.locationCount with hlt | hle
  · rw [h.check_of_lt hlt, location_of_lt hlt, h.entry_names (List.getElem?_eq_getElem hlt)]
    rfl
  · rw [h.check_of_le hle, location_of_le hle]
    rfl

theorem isAccepting (id : LocationId) :
    T.isAccepting id = (A.isAccepting id).mapError .reported := by
  rw [Tables.isAccepting, Automaton.isAccepting]
  rcases Nat.lt_or_ge id.toNat A.locationCount with hlt | hle
  · rw [h.check_of_lt hlt, location_of_lt hlt, h.entry_accepting (List.getElem?_eq_getElem hlt)]
    rfl
  · rw [h.check_of_le hle, location_of_le hle]
    rfl

theorem successors {α : Type} [Components α] (cfg : Config) (id : LocationId) (a : α) :
    T.successors cfg id a = A.successors cfg id a := by
  rw [Tables.successors, Automaton.successors, h.transitions]
  rcases Nat.lt_or_ge id.toNat A.locationCount with hlt | hle
  · rw [h.check_of_lt hlt, location_of_lt hlt]
    rfl
  · rw [h.check_of_le hle, location_of_le hle]
    rfl

/-! ### Calls of the builder -/

theorem addLocation (name : String) : SameAnswer (T.addLocation name) (A.addLocation name) := by
  have hid : T.id? name = A.id? name := h.index.id? name
  rw [Tables.addLocation, Automaton.addLocation, hid]
  cases hA : A.id? name with
  | some id => exact ⟨rfl, h⟩
  | none =>
      refine ⟨congrArg Names.idAt h.size, ?_, ?_, h.initial, h.transitions⟩
      · have hpush := h.index.push (Names.id?_eq_none_iff.mp hA)
        simpa [names] using hpush
      · simp [h.accepting]

theorem setInitial (name : String) :
    Alike Eq SameAnswer (T.setInitial name) (A.setInitial name) := by
  rw [Tables.setInitial, Automaton.setInitial, h.resolve]
  cases A.resolve name with
  | error e => exact .error rfl
  | ok id => exact .ok ⟨rfl, h.index, h.accepting, rfl, h.transitions⟩

/-- The id of a name lies below the number of marks, so the mark that is set
is there. -/
theorem setAccepting (name : String) :
    Alike (fun f e => f = .reported e) SameAnswer (T.setAccepting name) (A.setAccepting name) := by
  rw [Automaton.setAccepting]
  cases hid : A.id? name with
  | none =>
      rw [Tables.setAccepting, h.resolve, resolve_unknown hid]
      exact .error rfl
  | some id =>
      have hlt : id.toNat < T.accepting.length := by
        rw [h.accepting, List.length_map]
        exact lt_of_id? hid
      have hmark : T.setAccepting name =
          .ok (id, { T with accepting := T.accepting.set id.toNat true }) := by
        simp only [Tables.setAccepting, h.resolve, resolve_of_id? hid, Except.mapError, bind,
          Except.bind, overwrite_of_lt hlt]
        rfl
      rw [hmark, resolve_of_id? hid]
      refine .ok ⟨rfl, ?_, ?_, h.initial, h.transitions⟩
      · have hnames : (A.locations.modify id.toNat fun l => { l with accepting := true }).map
            Location.name = A.names := map_name_mark A.locations id.toNat
        show T.toNameTable.Indexes _
        rw [names, hnames]
        exact h.index
      · rw [h.accepting, map_accepting_mark]

theorem addTransition (t : Transition) :
    LoggedAlike Eq Eq SameAnswer (T.addTransition t) (A.addTransition t) := by
  rw [Tables.addTransition, Automaton.addTransition, resolveTransition, h.resolve, h.resolve]
  cases A.resolve t.source with
  | error e => exact ⟨rfl, .error rfl⟩
  | ok i =>
      cases A.resolve t.target with
      | error e => exact ⟨rfl, .error rfl⟩
      | ok j =>
          refine ⟨rfl, .ok ⟨?_, h.index, h.accepting, h.initial, ?_⟩⟩
          · simp [h.transitions]
          · simp [h.transitions]

end Represents

/-! ### The text -/

/-- The locations in the order of their names, each with its index. -/
def located (A : Automaton) : List (Location × Nat) :=
  A.locations.zipIdx.mergeSort fun x y => ByteOrder.le x.1.name y.1.name

theorem map_fst_located (A : Automaton) : (located A).map Prod.fst = A.byName := by
  rw [located, List.map_mergeSort, List.zipIdx_map_fst]
  · rfl
  · intro x _ y _
    rfl

theorem getElem?_of_mem_located {x : Location × Nat} (hx : x ∈ located A) :
    A.locations[x.2]? = some x.1 :=
  List.mem_zipIdx_iff_getElem?.mp (List.mem_mergeSort.mp hx)

theorem getElem?_names {x : Location × Nat} (hx : x ∈ A.locations.zipIdx) :
    A.names[x.2]? = some x.1.name := by
  rw [names, List.getElem?_map, List.mem_zipIdx_iff_getElem?.mp hx]
  rfl

/-- Where names are different, no two entries have the same name, and the
indices do not count. -/
theorem before_eq_le (hA : A.WellFormed) {x y : Location × Nat}
    (hx : x ∈ A.locations.zipIdx) (hy : y ∈ A.locations.zipIdx) :
    before (x.1.name, x.2) (y.1.name, y.2) = ByteOrder.le x.1.name y.1.name := by
  rw [before]
  by_cases hname : x.1.name = y.1.name
  · have hx : A.names[x.2]? = some x.1.name := getElem?_names hx
    have hy : A.names[y.2]? = some y.1.name := getElem?_names hy
    have hlt : x.2 < A.names.length := (List.getElem?_eq_some_iff.mp hx).1
    have hidx : x.2 = y.2 := (List.getElem?_inj hlt hA.nodup).mp (by rw [hx, hy, hname])
    have hrefl := ByteOrder.le_total y.1.name y.1.name
    rw [Bool.or_self] at hrefl
    rw [if_pos hname, hidx, hname, hrefl]
    exact decide_eq_true (Nat.le_refl _)
  · exact if_neg hname

namespace Represents

variable (h : T.Represents A)
include h

theorem byName (hA : A.WellFormed) :
    T.byName = (located A).map fun x => (x.1.name, x.2) := by
  rw [located, List.map_mergeSort, Tables.byName, h.index.names, names, List.zipIdx_map]
  · rfl
  · intro x hx y hy
    exact (before_eq_le hA hx hy).symm

/-- The marks that are looked up are those of the locations. -/
theorem markedNames {xs : List (Location × Nat)} (hxs : ∀ x ∈ xs, A.locations[x.2]? = some x.1) :
    T.markedNames (xs.map fun x => (x.1.name, x.2)) =
      .ok (((xs.map Prod.fst).filter Location.accepting).map Location.name) := by
  induction xs with
  | nil => rfl
  | cons x rest ih =>
      obtain ⟨hx, hrest⟩ := List.forall_mem_cons.mp hxs
      rw [List.map_cons, Tables.markedNames, h.entry_accepting hx, ih hrest]
      cases hmark : x.1.accepting <;> simp [hmark, bind, Except.bind, pure, Except.pure]

theorem initialName (hA : A.WellFormed) : T.initialName = .ok A.initialName := by
  rw [Tables.initialName, h.initial, Automaton.initialName]
  cases hi : A.initial with
  | none => rfl
  | some id =>
      obtain ⟨name, hname⟩ := hA.initial id hi
      have hl := List.getElem?_eq_getElem (lt_of_id? hname)
      simp only [hl]
      exact h.entry_names hl

theorem text (hA : A.WellFormed) : T.text = .ok A.text := by
  have hnames : T.byName.map Prod.fst = A.byName.map Location.name := by
    rw [h.byName hA, ← map_fst_located, List.map_map, List.map_map]
    rfl
  have hmarked : T.markedNames T.byName = .ok (A.acceptingByName.map Location.name) := by
    rw [h.byName hA, h.markedNames fun x => getElem?_of_mem_located, map_fst_located]
    rfl
  rw [Tables.text, h.initialName hA, hmarked, hnames, h.transitions]
  rfl

/-! ### Ids are indices -/

theorem length_accepting : T.accepting.length = T.names.length := by
  rw [h.accepting, h.index.names, List.length_map, length_names, locationCount]

theorem inRange (hA : A.WellFormed) : T.InRange where
  marks := h.length_accepting
  named hid := by
    rw [h.size]
    exact lt_of_id? ((h.index.id? _).symm.trans hid)
  added name := by
    obtain ⟨hid, hB⟩ := h.addLocation name
    rw [hid, hB.size]
    exact A.addLocation_lt name
  initial id hid := by
    obtain ⟨name, hname⟩ := hA.initial id (h.initial ▸ hid)
    rw [h.size]
    exact lt_of_id? hname
  transitions t ht := by
    have ht : t ∈ A.transitions := h.transitions ▸ ht
    rw [h.size]
    exact ⟨lt_of_id? (hA.source t ht), lt_of_id? (hA.target t ht)⟩

end Represents

/-! ### Whole histories -/

/-- The tables after an answer.  A refusal leaves them as they were, and a
breach leaves none. -/
def afterAnswer {β : Type} (T : Tables) :
    Except (Failure AutomatonError) (β × Tables) → Except Breach Tables
  | .ok (_, U) => .ok U
  | .error (.reported _) => .ok T
  | .error (.breach b) => .error b

/-- The tables after a call. -/
def after (T : Tables) : BuilderCall → Except Breach Tables
  | .addLocation name => .ok (T.addLocation name).2
  | .setInitial name => T.afterAnswer ((T.setInitial name).mapError .reported)
  | .setAccepting name => T.afterAnswer (T.setAccepting name)
  | .addTransition t => T.afterAnswer ((T.addTransition t).result.mapError .reported)

/-- The tables that a list of calls fills from nothing. -/
def build (calls : List BuilderCall) : Except Breach Tables := calls.foldlM after empty

theorem build_snoc (calls : List BuilderCall) (c : BuilderCall) :
    build (calls ++ [c]) = build calls >>= fun T => T.after c := by
  simp [build, List.foldlM_append]

theorem Represents.afterAnswer {β : Type} (h : T.Represents A)
    {x : Except (Failure AutomatonError) (β × Tables)} {y : Except AutomatonError (β × Automaton)}
    (hxy : Alike (fun f e => f = .reported e) SameAnswer x y) :
    ∃ U, T.afterAnswer x = .ok U ∧ U.Represents (A.afterAnswer y) := by
  cases hxy with
  | ok hans => exact ⟨_, rfl, hans.2⟩
  | error hfe =>
      subst hfe
      exact ⟨_, rfl, h⟩

/-- No call breaches, and each leaves the tables in step. -/
theorem Represents.after (h : T.Represents A) (c : BuilderCall) :
    ∃ U, T.after c = .ok U ∧ U.Represents (A.after c) := by
  cases c with
  | addLocation name => exact ⟨_, rfl, (h.addLocation name).2⟩
  | setInitial name =>
      refine h.afterAnswer ?_
      exact (h.setInitial name).mapError_left fun he => congrArg _ he
  | setAccepting name => exact h.afterAnswer (h.setAccepting name)
  | addTransition t =>
      refine h.afterAnswer ?_
      exact (h.addTransition t).result.mapError_left fun he => congrArg _ he

/-- Tables can be filled by any calls, and are those of the automaton that the
same calls build. -/
theorem represents_build (calls : List BuilderCall) :
    ∃ T, build calls = .ok T ∧ T.Represents (Automaton.build calls) := by
  induction calls using List.reverseRecOn with
  | nil => exact ⟨_, rfl, represents_empty⟩
  | append_singleton calls c ih =>
      obtain ⟨T, hT, h⟩ := ih
      rw [build_snoc, Automaton.build_snoc, hT]
      exact h.after c

/-- The tables answer every question and every call as the automaton does.  A
failure is one that the automaton reports, and never a breach. -/
structure Refines (T : Tables) (A : Automaton) : Prop where
  resolve (name : String) : T.resolve name = A.resolve name
  nameOf (id : LocationId) : T.nameOf id = (A.nameOf id).mapError .reported
  isAccepting (id : LocationId) : T.isAccepting id = (A.isAccepting id).mapError .reported
  successors {α : Type} [Components α] (cfg : Config) (id : LocationId) (a : α) :
    T.successors cfg id a = A.successors cfg id a
  text : T.text = .ok A.text
  addLocation (name : String) : SameAnswer (T.addLocation name) (A.addLocation name)
  setInitial (name : String) : Alike Eq SameAnswer (T.setInitial name) (A.setInitial name)
  setAccepting (name : String) :
    Alike (fun f e => f = .reported e) SameAnswer (T.setAccepting name) (A.setAccepting name)
  addTransition (t : Transition) :
    LoggedAlike Eq Eq SameAnswer (T.addTransition t) (A.addTransition t)

theorem Represents.refines (h : T.Represents A) (hA : A.WellFormed) : T.Refines A where
  resolve := h.resolve
  nameOf := h.nameOf
  isAccepting := h.isAccepting
  successors := h.successors
  text := h.text hA
  addLocation := h.addLocation
  setInitial := h.setInitial
  setAccepting := h.setAccepting
  addTransition := h.addTransition

/-- Whatever calls were made, with however many locations: the tables are
filled, no access to them goes astray, and nobody can tell them from the
automaton. -/
theorem refines_build (calls : List BuilderCall) :
    ∃ T, build calls = .ok T ∧ T.InRange ∧ T.Refines (Automaton.build calls) := by
  have hA := wellFormed_build calls
  obtain ⟨T, hT, h⟩ := represents_build calls
  exact ⟨T, hT, h.inRange hA, h.refines hA⟩

end Automaton.Tables
end GridBuchi
