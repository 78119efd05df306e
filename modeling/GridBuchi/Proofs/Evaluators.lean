/-
# `GridBuchi.Proofs.Evaluators` — trusting and checking differ in one report

Which evaluator is asked makes no difference to anything but one report.
Wherever the checking evaluator reports a component index outside the state,
the trusting one meets the breach of the same index and the same count;
everything else, results, errors and logs, is the same.

For a single transition this is `Transition.enabled_alike`.  What remains is
to carry it through the transitions of a location, the targets of a step and
the frontiers of an exploration, which the lemmas of
`GridBuchi.Proofs.Lockstep` do, with equality for everything that is not a
failure.
-/
import GridBuchi.Proofs.Lockstep

namespace GridBuchi

/-! ## The failures of the two evaluators -/

/-- A failure of the trusting evaluator and the one that stands for it in
the checking one.  Nothing else can make a product step fail. -/
inductive SameReport : Failure AutomatonError → Failure AutomatonError → Prop
  | outside (len index : Nat) :
      SameReport (.breach (.readOutside len index))
        (.reported (.proposition (.indexOutOfBounds index len)))
  | invalidLocation (id : LocationId) (count : Nat) :
      SameReport (.reported (.invalidLocation id count)) (.reported (.invalidLocation id count))
  | missingLocation : SameReport (.reported .missingLocation) (.reported .missingLocation)

theorem SameReport.biUnique : Relator.BiUnique SameReport := by
  constructor
  · intro f f' g h h'
    cases h <;> cases h' <;> rfl
  · intro f g g' h h'
    cases h <;> cases h' <;> rfl

/-- Two outcomes that are the same up to how a read outside the state is
reported, spelled out: what one of them is, for each thing it can be, tells
what the other is. -/
structure SameUpToReport {β : Type} (trusted checked : Except (Failure AutomatonError) β) :
    Prop where
  ok (v : β) : trusted = .ok v ↔ checked = .ok v
  invalidLocation (id : LocationId) (count : Nat) :
    trusted = .error (.reported (.invalidLocation id count)) ↔
      checked = .error (.reported (.invalidLocation id count))
  missingLocation :
    trusted = .error (.reported .missingLocation) ↔ checked = .error (.reported .missingLocation)
  outside (len index : Nat) :
    trusted = .error (.breach (.readOutside len index)) ↔
      checked = .error (.reported (.proposition (.indexOutOfBounds index len)))
  /-- There is no other way to fail. -/
  failure {f : Failure AutomatonError} : trusted = .error f → ∃ g, SameReport f g

theorem Alike.sameUpToReport {β : Type} {x y : Except (Failure AutomatonError) β}
    (h : Alike SameReport Eq x y) : SameUpToReport x y where
  ok v := h.ok_iff v
  invalidLocation id count := h.error_iff SameReport.biUnique (.invalidLocation id count)
  missingLocation := h.error_iff SameReport.biUnique .missingLocation
  outside len index := h.error_iff SameReport.biUnique (.outside len index)
  failure := by
    intro f hf
    cases h with
    | ok _ => cases hf
    | error hfg =>
        cases hf
        exact ⟨_, hfg⟩

/-! ## Carried through a product step and a path -/

/-- The two evaluators as the two settings of one switch. -/
theorem Transition.enabled_switch_alike {α : Type} [Components α] (a : α) (t : Transition)
    (trace : Bool) :
    Alike SameReport Eq (t.enabled ⟨false, trace⟩ a) (t.enabled ⟨true, trace⟩ a) := by
  refine (t.enabled_alike a).mapError ?_
  intro b e hbe
  cases hbe
  exact .outside _ _

namespace Automaton

variable (A : Automaton) (trace : Bool)

/-- Looking a location up fails in one way only. -/
theorem location_error {A : Automaton} {id : LocationId} {e : AutomatonError} (h : A.location id = .error e) :
    e = .invalidLocation id A.locationCount := by
  rw [location] at h
  split at h
  · cases h
  · cases h
    rfl

/-- A mark does not depend on the evaluator, and is missed in two ways. -/
theorem accepts_self_alike (s : State) :
    Alike (fun e f => SameReport (.reported e) (.reported f)) Eq (A.accepts s) (A.accepts s) := by
  rw [accepts]
  split
  · exact .error .missingLocation
  · next id _ =>
      rw [isAccepting]
      cases h : A.location id with
      | ok l => exact .ok rfl
      | error e =>
          rw [location_error h]
          exact .error (.invalidLocation _ _)

theorem successors_switch_alike {α : Type} [Components α] (id : LocationId) (a : α) :
    Alike SameReport Eq (A.successors ⟨false, trace⟩ id a) (A.successors ⟨true, trace⟩ id a) := by
  rw [successors, successors]
  cases h : A.location id with
  | error e =>
      rw [location_error h]
      exact .error (.invalidLocation _ _)
  | ok _ =>
      rw [← List.forall₂_eq_eq_eq]
      refine enabledTargets_alike (List.forall₂_same.mpr ?_)
      intro t _
      exact ⟨t.enabled_switch_alike a trace, rfl⟩

theorem synchronize_switch_alike (s c : State) :
    LoggedAlike Eq SameReport Eq (A.synchronize ⟨false, trace⟩ s c)
      (A.synchronize ⟨true, trace⟩ s c) :=
  synchronize_self_alike .eq (fun source => A.successors_switch_alike trace source s)
    .missingLocation fun _ _ _ => rfl

theorem explore_switch_alike (frontier candidates : List State) :
    LoggedAlike Eq SameReport Eq (A.explore ⟨false, trace⟩ frontier candidates)
      (A.explore ⟨true, trace⟩ frontier candidates) :=
  explore_self_alike .eq (A.synchronize_switch_alike trace) A.accepts_self_alike frontier candidates

/-! ## The two evaluators are one function -/

/-- The trusting and the checking evaluator are the same function up to how
a read outside the state is reported, for a single transition, for the
successors of a location, for a product step and along a path; and they log
the same. -/
theorem evaluators_agree :
    (∀ {α : Type} [Components α] (a : α) (t : Transition),
      (∀ b, t.enabledTrusted a = .ok b ↔ t.enabledChecked a = .ok b) ∧
      (∀ len index, t.enabledTrusted a = .error (.readOutside len index) ↔
        t.enabledChecked a = .error (.indexOutOfBounds index len)) ∧
      ∀ breach, t.enabledTrusted a = .error breach →
        ∃ len index, breach = .readOutside len index ∧ breach.message =
          "index out of bounds: the len is " ++ len.repr ++ " but the index is " ++ index.repr) ∧
    ∀ (A : Automaton) (trace : Bool),
      (∀ {α : Type} [Components α] (id : LocationId) (a : α),
        SameUpToReport (A.successors ⟨false, trace⟩ id a) (A.successors ⟨true, trace⟩ id a)) ∧
      (∀ state candidate : State,
        SameUpToReport (A.synchronize ⟨false, trace⟩ state candidate).result
          (A.synchronize ⟨true, trace⟩ state candidate).result ∧
        (A.synchronize ⟨false, trace⟩ state candidate).events =
          (A.synchronize ⟨true, trace⟩ state candidate).events) ∧
      ∀ frontier candidates : List State,
        SameUpToReport (A.explore ⟨false, trace⟩ frontier candidates).result
          (A.explore ⟨true, trace⟩ frontier candidates).result ∧
        (A.explore ⟨false, trace⟩ frontier candidates).events =
          (A.explore ⟨true, trace⟩ frontier candidates).events := by
  constructor
  · intro α _ a t
    have h := t.enabled_alike a
    refine ⟨h.ok_iff, fun len index => h.error_iff SameRead.biUnique (.outside len index), ?_⟩
    intro breach hb
    rw [hb] at h
    generalize t.enabledChecked a = y at h
    cases h with
    | error hread =>
        cases hread
        exact ⟨_, _, rfl, rfl⟩
  · intro A trace
    refine ⟨fun id a => (A.successors_switch_alike trace id a).sameUpToReport, ?_, ?_⟩
    · intro state candidate
      have h := A.synchronize_switch_alike trace state candidate
      exact ⟨h.result.sameUpToReport, h.events⟩
    · intro frontier candidates
      have h := A.explore_switch_alike trace frontier candidates
      exact ⟨h.result.sameUpToReport, h.events⟩

end Automaton
end GridBuchi
