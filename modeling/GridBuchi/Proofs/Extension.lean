/-
# `GridBuchi.Proofs.Extension` — going on with an automaton

An explorer may hold states that point into an automaton while the automaton
is still being built.  Nothing it holds goes stale.  Whatever calls follow, a
name keeps its id and an id its name, an accepting location stays accepting,
and the transitions that were there stay in front of the new ones.

For the successors of a location this means that an extension is a second
walk behind the first.  The old transitions are evaluated first and fail as
they did before; only if none of them fails are the new ones looked at, and
they contribute behind the old targets or fail on their own account.  The
reason is `enabledTargets_append`: the walk along two lists of transitions is
the walk along the first, then the walk along the second.
-/
import GridBuchi.Proofs.FirstGuard
import GridBuchi.Proofs.History

namespace GridBuchi.Automaton

variable {A B C : Automaton} {cfg : Config}

/-! ## A call takes nothing away -/

/-- `B` has what `A` has, and has it in the same place. -/
structure Extends (B A : Automaton) : Prop where
  id? {name : String} {id : LocationId} : A.id? name = some id → B.id? name = some id
  location {i : Nat} {l : Location} : A.locations[i]? = some l →
    ∃ m, B.locations[i]? = some m ∧ m.name = l.name ∧ (l.accepting = true → m.accepting = true)
  transitions : A.transitions <+: B.transitions

theorem Extends.refl (A : Automaton) : A.Extends A where
  id? h := h
  location {_ l} hl := ⟨l, hl, rfl, fun h => h⟩
  transitions := List.prefix_rfl

theorem Extends.trans (hBC : C.Extends B) (hAB : B.Extends A) : C.Extends A where
  id? hid := hBC.id? (hAB.id? hid)
  location := by
    intro i l hl
    obtain ⟨m, hm, hname, hmark⟩ := hAB.location hl
    obtain ⟨n, hn, hname', hmark'⟩ := hBC.location hm
    exact ⟨n, hn, hname'.trans hname, fun h => hmark' (hmark h)⟩
  transitions := hAB.transitions.trans hBC.transitions

theorem Change.extends {c : BuilderCall} (h : Change A c B) : B.Extends A := by
  have hid : ∀ {name id}, A.id? name = some id → B.id? name = some id := h.id?
  cases h with
  | refused _ _ | known _ => exact .refl A
  | location _ =>
      refine ⟨hid, ?_, List.prefix_rfl⟩
      intro i l hl
      have hi : i < A.locations.length := (List.getElem?_eq_some_iff.mp hl).1
      exact ⟨l, by rw [List.getElem?_append_left hi, hl], rfl, fun h => h⟩
  | initial _ => exact ⟨hid, (Extends.refl A).location, List.prefix_rfl⟩
  | @accepting name id _ =>
      refine ⟨hid, ?_, List.prefix_rfl⟩
      intro i l hl
      rw [List.getElem?_modify, hl]
      refine ⟨_, rfl, ?_⟩
      -- the location that is marked, or any other
      split
      · exact ⟨rfl, fun _ => rfl⟩
      · exact ⟨rfl, fun h => h⟩
  | transition _ _ => exact ⟨hid, (Extends.refl A).location, List.prefix_append _ _⟩

/-- The automaton after a list of further calls. -/
def extend (A : Automaton) (calls : List BuilderCall) : Automaton := calls.foldl after A

theorem build_append (calls more : List BuilderCall) :
    build (calls ++ more) = (build calls).extend more := List.foldl_append

theorem extends_extend (A : Automaton) (calls : List BuilderCall) : (A.extend calls).Extends A := by
  induction calls generalizing A with
  | nil => exact .refl A
  | cons c rest ih => exact (ih (A.after c)).trans (change_after A c).extends

/-! ## Ids in an extension -/

namespace Extends

variable (h : B.Extends A) {id : LocationId}
include h

theorem nameOf {name : String} (hn : A.nameOf id = .ok name) : B.nameOf id = .ok name := by
  rw [nameOf_eq_ok_iff, Names.nameAt?, names, List.getElem?_map, Option.map_eq_some_iff] at hn ⊢
  obtain ⟨l, hl, rfl⟩ := hn
  obtain ⟨m, hm, hname, -⟩ := h.location hl
  exact ⟨m, hm, hname⟩

theorem isAccepting (ha : A.isAccepting id = .ok true) : B.isAccepting id = .ok true := by
  rw [Automaton.isAccepting] at ha ⊢
  cases hl : A.location id with
  | error e =>
      rw [hl] at ha
      cases ha
  | ok l =>
      rw [hl] at ha
      obtain ⟨m, hm, -, hmark⟩ := h.location (location_eq_ok_iff.mp hl)
      rw [location_eq_ok_iff.mpr hm]
      exact congrArg Except.ok (hmark (Except.ok.inj ha))

theorem lt_locationCount (hid : id.toNat < A.locationCount) : id.toNat < B.locationCount := by
  obtain ⟨m, hm, -, -⟩ := h.location (List.getElem?_eq_getElem hid)
  exact (List.getElem?_eq_some_iff.mp hm).1

end Extends

/-! ## Successors in an extension -/

section Successors

variable {α : Type} [Components α] {a : α}

theorem successors_of_lt {id : LocationId} (hid : id.toNat < A.locationCount) :
    A.successors cfg id a = enabledTargets cfg a (A.leaving id) := by
  rw [successors, location_of_lt hid]

/-- The transitions that leave a location and were not there in `A`. -/
def addedLeaving (B A : Automaton) (id : LocationId) : List Transition :=
  (B.transitions.drop A.transitions.length).filter (fun t => t.sourceId = id)

theorem Extends.leaving (h : B.Extends A) (id : LocationId) :
    B.leaving id = A.leaving id ++ B.addedLeaving A id := by
  obtain ⟨added, hadded⟩ := h.transitions
  rw [Automaton.leaving, Automaton.leaving, addedLeaving, ← hadded, List.filter_append,
    List.drop_left]

/-- The successors in an extension: those there were, then the enabled ones
among the new transitions. -/
theorem Extends.successors (h : B.Extends A) {id : LocationId} (hid : id.toNat < A.locationCount) :
    B.successors cfg id a =
      A.successors cfg id a >>= fun ls =>
        (enabledTargets cfg a (B.addedLeaving A id)).map (ls ++ ·) := by
  rw [successors_of_lt hid, successors_of_lt (h.lt_locationCount hid), h.leaving,
    enabledTargets_append]

end Successors

/-! ## Nothing goes stale -/

/-- What somebody who knows `A` can rely on in `B`. -/
structure Preserves (B A : Automaton) : Prop where
  id {name : String} {id : LocationId} : A.id? name = some id → B.id? name = some id
  name {id : LocationId} {name : String} : A.nameOf id = .ok name → B.nameOf id = .ok name
  accepting {id : LocationId} : A.isAccepting id = .ok true → B.isAccepting id = .ok true
  transitions : A.transitions <+: B.transitions
  /-- Where the successors of a location failed, they still fail, and in the
  same way. -/
  failure {α : Type} [Components α] {cfg : Config} {a : α} {id : LocationId}
    {f : Failure AutomatonError} : id.toNat < A.locationCount →
    A.successors cfg id a = .error f → B.successors cfg id a = .error f
  /-- Otherwise those of the new transitions come behind, unless one of them
  fails; then the first that does decides. -/
  successors {α : Type} [Components α] {cfg : Config} {a : α} {id : LocationId}
    {ls : List LocationId} : id.toNat < A.locationCount → A.successors cfg id a = .ok ls →
    (B.successors cfg id a =
        .ok (ls ++ ((B.addedLeaving A id).filter (fun t => t.Enabled a)).map Transition.targetId) ∧
      ∀ t ∈ B.addedLeaving A id, ∃ enabled, t.enabled cfg a = .ok enabled) ∨
    ∃ f, B.successors cfg id a = .error f ∧
      StopsAt (fun t => ∃ enabled, t.enabled cfg a = .ok enabled)
        (fun t => t.enabled cfg a = .error f) (B.addedLeaving A id)
  /-- A product state at a location of `A` is at the same location of `B`. -/
  state {s : State} {id : LocationId} : s.location? = some id → id.toNat < A.locationCount →
    id.toNat < B.locationCount ∧ B.nameOf id = A.nameOf id

theorem Extends.preserves (h : B.Extends A) : B.Preserves A where
  id := h.id?
  name := h.nameOf
  accepting := h.isAccepting
  transitions := h.transitions
  failure hid hf := by
    rw [h.successors hid, hf]
    rfl
  successors {α _ cfg a id ls} hid hls := by
    rw [h.successors hid, hls]
    rcases enabledTargets_cases cfg a (B.addedLeaving A id) with ⟨hall, hadded⟩ | ⟨f, hstop, hadded⟩
    · rw [hadded]
      exact Or.inl ⟨rfl, hall⟩
    · rw [hadded]
      exact Or.inr ⟨f, rfl, hstop⟩
  state _ hid := by
    obtain ⟨name, hname⟩ := exists_nameOf hid
    exact ⟨h.lt_locationCount hid, by rw [hname, h.nameOf hname]⟩

/-- Whatever calls build an automaton, further calls preserve it. -/
theorem extension_preserves (calls more : List BuilderCall) :
    (build (calls ++ more)).Preserves (build calls) := by
  rw [build_append]
  exact (extends_extend (build calls) more).preserves

/-- A new location, and on the way there a guard on a second species. -/
def giveUpLate : List BuilderCall :=
  [.addLocation "late",
    .addTransition ⟨"wait", "late", [.armed ⟨1, .lessEqual, 3⟩ "y <= 3" (by decide)], [], 0, 0⟩]

/-- With two species the new target comes behind the old ones; with one, the
new guard is what fails. -/
theorem waitForThree_preserved :
    (build (waitForThree ++ giveUpLate)).Preserves (build waitForThree) ∧
      (build waitForThree).successors ⟨true, false⟩ 0 [(3 : Word), 0] = .ok [0, 1] ∧
      (build (waitForThree ++ giveUpLate)).successors ⟨true, false⟩ 0 [(3 : Word), 0] =
        .ok [0, 1, 2] ∧
      (build waitForThree).successors ⟨true, false⟩ 0 [(3 : Word)] = .ok [0, 1] ∧
      (build (waitForThree ++ giveUpLate)).successors ⟨true, false⟩ 0 [(3 : Word)] =
        .error (.reported (.proposition (.indexOutOfBounds 1 1))) :=
  ⟨extension_preserves waitForThree giveUpLate, rfl, rfl, rfl, rfl⟩

end GridBuchi.Automaton
