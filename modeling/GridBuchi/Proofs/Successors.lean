/-
# `GridBuchi.Proofs.Successors` — successors by the transitions that leave

The successors of a location are found by one walk along the transitions that
leave it, in the order in which they were added.  If all of these can be
evaluated, the outcome lists the targets of the enabled ones, a target once
for each transition that leads to it; otherwise it is the failure of the
first that cannot.

Nothing else of the automaton is looked at, apart from the number of its
locations, which decides whether there is such a location.  Two automata that
agree on this number, and on the guards and targets of the transitions that
leave a location, agree on its successors.  They may differ in every name and
mark and in all other transitions, even where the guards of these ask for
components that are not there.
-/
import GridBuchi.Proofs.Carriers
import GridBuchi.Proofs.Extension

namespace GridBuchi

/-- The same guards and the same target.  Names and sources are not
compared. -/
structure Transition.SameMove (t u : Transition) : Prop where
  positive : t.positive = u.positive
  negative : t.negative = u.negative
  targetId : t.targetId = u.targetId

theorem Transition.SameMove.enabled {α : Type} [Components α] {t u : Transition}
    (h : t.SameMove u) (cfg : Config) (a : α) : t.enabled cfg a = u.enabled cfg a :=
  enabled_congr cfg (fun _ => rfl) h.positive h.negative

namespace Automaton

variable {α : Type} [Components α] {a : α} {A B : Automaton} {cfg : Config} {id : LocationId}

/-! ## The walk from a location -/

theorem successors_of_le (h : A.locationCount ≤ id.toNat) :
    A.successors cfg id a = .error (.reported (.invalidLocation id A.locationCount)) :=
  successors_eq_error_iff.mpr (Or.inl ⟨h, rfl⟩)

/-- No transition fails as a missing location does. -/
theorem successors_eq_invalid_iff :
    A.successors cfg id a = .error (.reported (.invalidLocation id A.locationCount)) ↔
      A.locationCount ≤ id.toNat := by
  constructor
  · intro h
    rcases successors_eq_error_iff.mp h with ⟨hle, -⟩ | ⟨-, i, -, hf⟩
    · exact hle
    · rw [Config.readFailure] at hf
      split at hf <;> simp at hf
  · exact successors_of_le

theorem successors_congr_of_leaving (hcount : A.locationCount = B.locationCount)
    (h : List.Forall₂ (fun t u => t.enabled cfg a = u.enabled cfg a ∧ t.targetId = u.targetId)
      (A.leaving id) (B.leaving id)) :
    A.successors cfg id a = B.successors cfg id a := by
  rcases Nat.lt_or_ge id.toNat A.locationCount with hlt | hle
  · rw [successors_of_lt hlt, successors_of_lt (hcount ▸ hlt), enabledTargets_congr h]
  · rw [successors_of_le hle, successors_of_le (hcount ▸ hle), hcount]

theorem WellFormed.successors_lt (hA : A.WellFormed) {ls : List LocationId}
    (h : A.successors cfg id a = .ok ls) {l : LocationId} (hl : l ∈ ls) :
    l.toNat < A.locationCount := by
  obtain ⟨t, ht, -, -, rfl⟩ := (mem_successors h l).mp hl
  exact lt_of_id? (hA.target t ht)

/-! ## What the successors of a location are -/

/-- All there is to say of the successors of a location. -/
structure Successors (A : Automaton) (cfg : Config) (id : LocationId) (a : α) : Prop where
  /-- There is no such location. -/
  invalid : A.successors cfg id a = .error (.reported (.invalidLocation id A.locationCount)) ↔
    A.locationCount ≤ id.toNat
  /-- No transition that leaves the location fails: those that are enabled
  give their targets. -/
  targets {ls : List LocationId} : id.toNat < A.locationCount →
    (A.successors cfg id a = .ok ls ↔
      (∀ t ∈ A.leaving id, ∃ enabled, t.enabled cfg a = .ok enabled) ∧
        ls = ((A.leaving id).filter (fun t => t.Enabled a)).map Transition.targetId)
  /-- Some of them fail: the first that does decides. -/
  failure {f : Failure AutomatonError} : id.toNat < A.locationCount →
    (A.successors cfg id a = .error f ↔
      StopsAt (fun t => ∃ enabled, t.enabled cfg a = .ok enabled)
        (fun t => t.enabled cfg a = .error f) (A.leaving id))
  /-- The transitions that leave the location are all that counts. -/
  locality {B : Automaton} : B.locationCount = A.locationCount →
    List.Forall₂ Transition.SameMove (B.leaving id) (A.leaving id) →
      B.successors cfg id a = A.successors cfg id a
  inRange {ls : List LocationId} : A.successors cfg id a = .ok ls →
    ∀ l ∈ ls, l.toNat < A.locationCount

/-- In every automaton that calls build, the successors of a location are the
targets of the enabled transitions that leave it, up to the first that fails,
and nothing but these transitions is looked at. -/
theorem successors_by_leaving (calls : List BuilderCall) (cfg : Config) (id : LocationId) (a : α) :
    (build calls).Successors cfg id a where
  invalid := successors_eq_invalid_iff
  targets hlt := by rw [successors_of_lt hlt, enabledTargets_eq_ok_iff]
  failure hlt := by rw [successors_of_lt hlt, enabledTargets_eq_error_iff]
  locality hcount h :=
    successors_congr_of_leaving hcount (h.imp fun _ _ htu => ⟨htu.enabled cfg a, htu.targetId⟩)
  inRange h _ hl := (wellFormed_build calls).successors_lt h hl

/-- Like `waitForThree` in what leaves the first location, and in nothing
else: the transition that leaves the second asks for a tenth species. -/
def waitForThreeElsewhere : List BuilderCall :=
  [.addLocation "a", .addLocation "b", .setAccepting "a",
    .addTransition ⟨"b", "a", [.armed ⟨9, .less, 3⟩ "z < 3" (by decide)], [], 0, 0⟩,
    .addTransition (.unconditional "a" "a"),
    .addTransition ⟨"a", "b", [atLeastThree], [], 0, 0⟩]

theorem waitForThree_successors_local :
    (build waitForThree).Successors ⟨true, false⟩ 0 [(3 : Word)] ∧
      (build waitForThreeElsewhere).successors ⟨true, false⟩ 1 [(3 : Word)] =
        .error (.reported (.proposition (.indexOutOfBounds 9 1))) ∧
      (build waitForThreeElsewhere).successors ⟨true, false⟩ 0 [(3 : Word)] =
        (build waitForThree).successors ⟨true, false⟩ 0 [(3 : Word)] ∧
      (build waitForThree).successors ⟨true, false⟩ 0 [(3 : Word)] = .ok [0, 1] := by
  have h := successors_by_leaving waitForThree ⟨true, false⟩ 0 [(3 : Word)]
  have hleaving : List.Forall₂ Transition.SameMove ((build waitForThreeElsewhere).leaving 0)
      ((build waitForThree).leaving 0) :=
    .cons ⟨rfl, rfl, rfl⟩ (.cons ⟨rfl, rfl, rfl⟩ .nil)
  exact ⟨h, rfl, h.locality rfl hleaving, rfl⟩

end Automaton
end GridBuchi
