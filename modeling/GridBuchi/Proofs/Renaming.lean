/-
# `GridBuchi.Proofs.Renaming` — ids do not show

The id of a location depends on the order in which locations were declared,
and nothing else should.  Two automata are the same *by name* when they have
the same names, the same accepting names, the same initial name and, place by
place, transitions with the same names and guards; their ids may be permuted
in any way.

Such automata have the same locations as a set, so an id of the one and an id
of the other that stand for one name address one location.  From there the
two explorations run in step: the relation between states is that of equal
species and locations of one name, and it pairs each state with one other,
which is what the removal of duplicates needs.  The text lists locations in
the order of their names, and a sort by a total order forgets the order it
was given.
-/
import GridBuchi.Automaton.Text
import GridBuchi.Proofs.History
import GridBuchi.Proofs.Lockstep

namespace GridBuchi

/-! ## The same by name -/

/-- The same names and guards; the ids are not compared. -/
structure Transition.SameByName (t u : Transition) : Prop where
  source : t.source = u.source
  target : t.target = u.target
  positive : t.positive = u.positive
  negative : t.negative = u.negative

theorem Transition.SameByName.text {t u : Transition} (h : t.SameByName u) : t.text = u.text := by
  simp only [Transition.text, guardText, guardTexts, h.source, h.target, h.positive, h.negative]

namespace Automaton

/-- The names of the accepting locations. -/
def acceptingNames (A : Automaton) : List String :=
  (A.locations.filter Location.accepting).map Location.name

/-- An id of `A` and an id of `B` that stand for one name. -/
def SameName (A B : Automaton) (i j : LocationId) : Prop :=
  ∃ name, A.nameOf i = .ok name ∧ B.nameOf j = .ok name

/-- Two automata that differ at most in their ids. -/
structure SameByName (A B : Automaton) : Prop where
  names : ∀ name, name ∈ A.names ↔ name ∈ B.names
  accepting : ∀ name, name ∈ A.acceptingNames ↔ name ∈ B.acceptingNames
  initial : Option.Rel (A.SameName B) A.initial B.initial
  transitions : List.Forall₂ Transition.SameByName A.transitions B.transitions

variable {A B : Automaton}

/-! ## The same locations -/

theorem WellFormed.eq_of_name (hA : A.WellFormed) {l m : Location} (hl : l ∈ A.locations)
    (hm : m ∈ A.locations) (h : l.name = m.name) : l = m :=
  List.inj_on_of_nodup_map hA.nodup hl hm h

/-- A location is accepting if its name is among the accepting ones. -/
theorem WellFormed.accepting_iff (hA : A.WellFormed) {l : Location} (hl : l ∈ A.locations) :
    l.accepting = true ↔ l.name ∈ A.acceptingNames := by
  constructor
  · intro h
    exact List.mem_map_of_mem (List.mem_filter.mpr ⟨hl, h⟩)
  · intro h
    obtain ⟨m, hm, hname⟩ := List.mem_map.mp h
    obtain ⟨hm, hmark⟩ := List.mem_filter.mp hm
    rwa [hA.eq_of_name hl hm hname.symm]

theorem SameByName.symm (h : A.SameByName B) : B.SameByName A where
  names name := (h.names name).symm
  accepting name := (h.accepting name).symm
  initial := by
    have hi := h.initial
    generalize A.initial = x at hi ⊢
    generalize B.initial = y at hi ⊢
    cases hi with
    | none => exact .none
    | some hij =>
        obtain ⟨name, hi, hj⟩ := hij
        exact .some ⟨name, hj, hi⟩
  transitions := by
    refine h.transitions.flip.imp ?_
    intro u t htu
    exact ⟨htu.source.symm, htu.target.symm, htu.positive.symm, htu.negative.symm⟩

section Same

variable (hA : A.WellFormed) (hB : B.WellFormed) (h : A.SameByName B)
include hA hB h

theorem SameByName.mem_of_mem {l : Location} (hl : l ∈ A.locations) : l ∈ B.locations := by
  obtain ⟨m, hm, hname⟩ := List.mem_map.mp ((h.names l.name).mp (List.mem_map_of_mem hl))
  have hmark : l.accepting = m.accepting := by
    rw [Bool.eq_iff_iff, hA.accepting_iff hl, hB.accepting_iff hm, hname]
    exact h.accepting l.name
  have hlm : l = m := by
    cases l
    cases m
    cases hname
    cases hmark
    rfl
  rwa [hlm]

/-- The locations of the two differ in their order only. -/
theorem SameByName.perm : A.locations.Perm B.locations := by
  refine (List.perm_ext_iff_of_nodup (List.Nodup.of_map _ hA.nodup)
    (List.Nodup.of_map _ hB.nodup)).mpr ?_
  intro l
  exact ⟨h.mem_of_mem hA hB, h.symm.mem_of_mem hB hA⟩

/-- Ids of one name address one location. -/
theorem SameByName.location {i j : LocationId} (hij : A.SameName B i j) :
    ∃ l, A.location i = .ok l ∧ B.location j = .ok l := by
  obtain ⟨name, hi, hj⟩ := hij
  rw [nameOf_eq_ok_iff, Names.nameAt?, Automaton.names, List.getElem?_map,
    Option.map_eq_some_iff] at hi hj
  obtain ⟨l, hl, rfl⟩ := hi
  obtain ⟨m, hm, hname⟩ := hj
  have hlB := h.mem_of_mem hA hB (List.mem_of_getElem? hl)
  obtain rfl := hB.eq_of_name (List.mem_of_getElem? hm) hlB hname
  exact ⟨m, location_eq_ok_iff.mpr hl, location_eq_ok_iff.mpr hm⟩

omit h in
theorem sameName_biUnique : Relator.BiUnique (A.SameName B) := by
  constructor
  · rintro i i' j ⟨name, hi, hj⟩ ⟨name', hi', hj'⟩
    have hname : name = name' := Except.ok.inj (hj.symm.trans hj')
    have hid := hA.id?_of_nameOf hi
    rw [hname, hA.id?_of_nameOf hi'] at hid
    exact (Option.some.inj hid).symm
  · rintro i j j' ⟨name, hi, hj⟩ ⟨name', hi', hj'⟩
    have hname : name = name' := Except.ok.inj (hi.symm.trans hi')
    have hid := hB.id?_of_nameOf hj
    rw [hname, hB.id?_of_nameOf hj'] at hid
    exact (Option.some.inj hid).symm

end Same

/-! ## Successors and product steps -/

/-- A failure of a guard, the same on both sides. -/
inductive SameGuardFailure : Failure AutomatonError → Failure AutomatonError → Prop
  | proposition (e : PropositionError) :
      SameGuardFailure (.reported (.proposition e)) (.reported (.proposition e))
  | breach (b : Breach) : SameGuardFailure (.breach b) (.breach b)

/-- Transitions that are the same by name, with ids that stand for their
names. -/
structure SameTransition (A B : Automaton) (t u : Transition) : Prop where
  byName : t.SameByName u
  source : A.SameName B t.sourceId u.sourceId
  target : A.SameName B t.targetId u.targetId

theorem enabled_self_alike {α : Type} [Components α] (cfg : Config) (a : α) (t : Transition) :
    Alike SameGuardFailure Eq (t.enabled cfg a) (t.enabled cfg a) := by
  rw [Transition.enabled]
  split
  · cases t.enabledChecked a with
    | ok _ => exact .ok rfl
    | error e => exact .error (.proposition e)
  · cases t.enabledTrusted a with
    | ok _ => exact .ok rfl
    | error b => exact .error (.breach b)

section Simulation

variable (hA : A.WellFormed) (hB : B.WellFormed) (hbA : A.locationCount ≤ UInt32.size)
  (hbB : B.locationCount ≤ UInt32.size) (h : A.SameByName B)
include hA hB hbA hbB h

theorem SameByName.sameTransition :
    List.Forall₂ (A.SameTransition B) A.transitions B.transitions := by
  obtain ⟨hlen, hzip⟩ := List.forall₂_iff_zip.mp h.transitions
  refine List.forall₂_iff_zip.mpr ⟨hlen, ?_⟩
  intro t u htu
  obtain ⟨ht, hu⟩ := List.of_mem_zip htu
  have hname := hzip htu
  refine ⟨hname, ⟨t.source, nameOf_of_id? hbA (hA.source t ht), ?_⟩,
    ⟨t.target, nameOf_of_id? hbA (hA.target t ht), ?_⟩⟩
  · rw [hname.source]
    exact nameOf_of_id? hbB (hB.source u hu)
  · rw [hname.target]
    exact nameOf_of_id? hbB (hB.target u hu)

theorem SameByName.leaving {i j : LocationId} (hij : A.SameName B i j) :
    List.Forall₂ (A.SameTransition B) (A.leaving i) (B.leaving j) := by
  refine List.rel_filter ?_ (h.sameTransition hA hB hbA hbB)
  intro t u htu
  have hR := sameName_biUnique hA hB
  simp only [decide_eq_true_eq]
  constructor
  · intro hi
    exact hR.2 (hi ▸ htu.source) hij
  · intro hj
    exact hR.1 (hj ▸ htu.source) hij

/-- A location of one name allows the same locations next, by name.  The two
readers may differ, as long as they read the same. -/
theorem SameByName.successors_alike {α β : Type} [Components α] [Components β] (cfg : Config)
    {a : α} {b : β} (hab : ∀ i, Components.read a i = Components.read b i) {i j : LocationId}
    (hij : A.SameName B i j) :
    Alike SameGuardFailure (List.Forall₂ (A.SameName B)) (A.successors cfg i a)
      (B.successors cfg j b) := by
  obtain ⟨l, hi, hj⟩ := h.location hA hB hij
  rw [successors, successors, hi, hj]
  refine enabledTargets_alike ((h.leaving hA hB hbA hbB hij).imp ?_)
  intro t u htu
  refine ⟨?_, htu.target⟩
  rw [← Transition.enabled_congr cfg hab htu.byName.positive htu.byName.negative]
  exact enabled_self_alike cfg a t

end Simulation

/-! ## Rows -/

/-- Two product states that differ at most in the ids of their locations. -/
structure SameState (A B : Automaton) (s t : State) : Prop where
  species : s.species = t.species
  location : ∃ i j, s.location? = some i ∧ t.location? = some j ∧ A.SameName B i j

theorem sameState_biUnique (hA : A.WellFormed) (hB : B.WellFormed) :
    Relator.BiUnique (A.SameState B) := by
  have hR := sameName_biUnique hA hB
  constructor
  · rintro s s' t ⟨hs, i, j, hi, hj, hij⟩ ⟨hs', i', j', hi', hj', hij'⟩
    rw [hj] at hj'
    cases hj'
    refine State.eq_of_views (hs.trans hs'.symm) ?_
    rw [hi, hi', hR.1 hij hij']
  · rintro s t t' ⟨ht, i, j, hi, hj, hij⟩ ⟨ht', i', j', hi', hj', hij'⟩
    rw [hi] at hi'
    cases hi'
    refine State.eq_of_views (ht.symm.trans ht') ?_
    rw [hj, hj', hR.2 hij hij']

theorem sameState_product {row : List Word} {i j : LocationId} (h : A.SameName B i j) :
    A.SameState B (State.product row i) (State.product row j) := by
  refine ⟨?_, i, j, State.location?_product row i, State.location?_product row j, h⟩
  rw [State.species_product, State.species_product]

/-- A state is read through its species only. -/
theorem read_eq_of_species {s t : State} (h : s.species = t.species) (i : Nat) :
    Components.read s i = Components.read t i := by
  show Components.read s.species i = Components.read t.species i
  rw [h]

theorem SameByName.accepts_alike (hA : A.WellFormed) (hB : B.WellFormed) (h : A.SameByName B)
    {s t : State} (hst : A.SameState B s t) :
    Alike (fun e f => SameGuardFailure (.reported e) (.reported f)) Eq (A.accepts s)
      (B.accepts t) := by
  obtain ⟨i, j, hi, hj, hij⟩ := hst.location
  obtain ⟨l, hl, hl'⟩ := h.location hA hB hij
  rw [accepts_of_location? hi, accepts_of_location? hj, isAccepting, isAccepting, hl, hl']
  exact .ok rfl

/-- Two rows that differ at most in the ids of the locations. -/
def SameRow (A B : Automaton) : List (State × Bool) → List (State × Bool) → Prop :=
  List.Forall₂ fun shown shown' => A.SameState B shown.1 shown'.1 ∧ shown.2 = shown'.2

theorem SameByName.explore_alike (hA : A.WellFormed) (hB : B.WellFormed)
    (hbA : A.locationCount ≤ UInt32.size) (hbB : B.locationCount ≤ UInt32.size) (h : A.SameByName B)
    (cfg : Config) {s t : State} (hst : A.SameState B s t) {candidates : List State}
    (hslot : ∀ c ∈ candidates, c.location?.isSome) :
    Alike SameGuardFailure (List.Forall₂ (A.SameRow B)) (A.explore cfg [s] candidates).result
      (B.explore cfg [t] candidates).result := by
  refine (Automaton.explore_alike .any (sameState_biUnique hA hB) ?_ ?_
    (.cons hst .nil)).result
  · intro c hc s t hst
    obtain ⟨i, j, hi, hj, hij⟩ := hst.location
    have hsucc := h.successors_alike hA hB hbA hbB cfg (read_eq_of_species hst.species) hij
    refine synchronize_alike .any hi hj hsucc ?_ ?_
    · intro hnone
      have hc := hslot c hc
      rw [hnone] at hc
      cases hc
    · intro l m hlm
      exact ⟨sameState_product hlm, trivial⟩
  · intro s t hst
    exact h.accepts_alike hA hB hst

/-! ## Text -/

theorem pairwise_byName (A : Automaton) :
    A.byName.Pairwise (fun l m => ByteOrder.le l.name m.name = true) :=
  List.pairwise_mergeSort (fun l m n => ByteOrder.le_trans l.name m.name n.name)
    (fun l m => ByteOrder.le_total l.name m.name) A.locations

section Text

variable (hA : A.WellFormed) (hB : B.WellFormed) (h : A.SameByName B)
include hA hB h

/-- Listed by name, the locations are the same lists: names are different,
so only one list of them is in order. -/
theorem SameByName.byName : A.byName = B.byName := by
  have hp : A.byName.Perm A.locations := List.mergeSort_perm _ _
  have hq : B.byName.Perm B.locations := List.mergeSort_perm _ _
  refine List.Perm.eq_of_pairwise ?_ A.pairwise_byName B.pairwise_byName
    (hp.trans ((h.perm hA hB).trans hq.symm))
  intro l m hl hm hlm hml
  have hlB : l ∈ B.locations := h.mem_of_mem hA hB (hp.mem_iff.mp hl)
  exact hB.eq_of_name hlB (hq.mem_iff.mp hm) (ByteOrder.le_antisymm hlm hml)

theorem SameByName.initialName : A.initialName = B.initialName := by
  have hi := h.initial
  rw [Automaton.initialName, Automaton.initialName]
  generalize A.initial = x at hi ⊢
  generalize B.initial = y at hi ⊢
  cases hi with
  | none => rfl
  | some hij =>
      obtain ⟨l, hl, hm⟩ := h.location hA hB hij
      rw [location_eq_ok_iff] at hl hm
      simp only [hl, hm]

omit hA hB in
theorem SameByName.transitionLines : A.transitionLines = B.transitionLines := by
  rw [Automaton.transitionLines, Automaton.transitionLines]
  refine congrArg _ ?_
  rw [← List.forall₂_eq_eq_eq, List.forall₂_map_left_iff, List.forall₂_map_right_iff]
  refine h.transitions.imp ?_
  intro t u htu
  rw [htu.text]

theorem SameByName.text : A.text = B.text := by
  have hlocations := h.byName hA hB
  have haccepting : A.acceptingByName = B.acceptingByName := by
    rw [acceptingByName, acceptingByName, hlocations]
  have hinitial := h.initialName hA hB
  have htransitions := h.transitionLines
  unfold Automaton.text
  rw [hlocations, haccepting, hinitial, htransitions]

end Text

/-! ## The order of declaration does not matter -/

/-- Two automata that were built from calls in any order and are the same by
name cannot be told apart: not by the successors of a location, not by the
rows of an exploration, not by their text. -/
theorem declaration_order_irrelevant (calls calls' : List BuilderCall)
    (hb : (build calls).locationCount ≤ UInt32.size) (hb' : (build calls').locationCount ≤ UInt32.size)
    (h : (build calls).SameByName (build calls')) :
    (∀ name ∈ (build calls).names, ∃ i j, (build calls).id? name = some i ∧
      (build calls').id? name = some j ∧
      ∀ {α : Type} [Components α] (cfg : Config) (a : α),
        Alike SameGuardFailure (List.Forall₂ ((build calls).SameName (build calls')))
          ((build calls).successors cfg i a) ((build calls').successors cfg j a)) ∧
    (∀ (cfg : Config) (start start' : State) (candidates : List State),
      (build calls).SameState (build calls') start start' →
      (∀ c ∈ candidates, c.location?.isSome) →
      Alike SameGuardFailure (List.Forall₂ ((build calls).SameRow (build calls')))
        ((build calls).explore cfg [start] candidates).result
        ((build calls').explore cfg [start'] candidates).result) ∧
    (build calls).text = (build calls').text := by
  have hA := wellFormed_build calls
  have hB := wellFormed_build calls'
  refine ⟨?_, ?_, h.text hA hB⟩
  · intro name hname
    obtain ⟨i, hi⟩ := Names.exists_id? hname
    obtain ⟨j, hj⟩ := Names.exists_id? ((h.names name).mp hname)
    refine ⟨i, j, hi, hj, ?_⟩
    intro α _ cfg a
    exact h.successors_alike hA hB hb hb' cfg (fun _ => rfl)
      ⟨name, nameOf_of_id? hb hi, nameOf_of_id? hb' hj⟩
  · intro cfg start start' candidates hstart hslot
    exact h.explore_alike hA hB hb hb' cfg hstart hslot

/-- `waitForThree` with its locations declared the other way round, so that
every id is another one. -/
def waitForThreeBackwards : List BuilderCall :=
  [.addLocation "done", .addLocation "wait", .setAccepting "done", .setInitial "wait",
    .addTransition (.unconditional "wait" "wait"),
    .addTransition ⟨"wait", "done", [atLeastThree], [], 0, 0⟩,
    .addTransition (.unconditional "done" "done")]

theorem sameByName_backwards :
    (build waitForThree).SameByName (build waitForThreeBackwards) := by
  have hnames : (build waitForThree).names.Perm (build waitForThreeBackwards).names := by decide
  have haccepting :
      (build waitForThree).acceptingNames.Perm (build waitForThreeBackwards).acceptingNames := by
    decide
  refine ⟨fun _ => hnames.mem_iff, fun _ => haccepting.mem_iff, .some ⟨"wait", rfl, rfl⟩, ?_⟩
  exact .cons ⟨rfl, rfl, rfl, rfl⟩ (.cons ⟨rfl, rfl, rfl, rfl⟩ (.cons ⟨rfl, rfl, rfl, rfl⟩ .nil))

theorem backwards_declaration_irrelevant :
    (build waitForThree).SameByName (build waitForThreeBackwards) ∧
      (build waitForThree).locations ≠ (build waitForThreeBackwards).locations ∧
      Alike SameGuardFailure
        (List.Forall₂ ((build waitForThree).SameRow (build waitForThreeBackwards)))
        ((build waitForThree).explore {} [.product [5] 0] [.product [4] 0, .product [0] 0]).result
        ((build waitForThreeBackwards).explore {} [.product [5] 1]
          [.product [4] 0, .product [0] 0]).result ∧
      (build waitForThree).text = (build waitForThreeBackwards).text := by
  have hstart : (build waitForThree).SameState (build waitForThreeBackwards) (.product [5] 0)
      (.product [5] 1) := ⟨rfl, 0, 1, rfl, rfl, "wait", rfl, rfl⟩
  obtain ⟨-, hrows, htext⟩ := declaration_order_irrelevant waitForThree waitForThreeBackwards
    (by decide) (by decide) sameByName_backwards
  exact ⟨sameByName_backwards, by decide, hrows {} _ _ _ hstart (by decide), htext⟩

end Automaton
end GridBuchi
