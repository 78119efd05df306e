/-
# `GridBuchi.Proofs.Delivery` — how one product step goes

There are three things that can be missing, and they are looked for in a
fixed order.  First the location of the state that is left: without it there
is nothing to step from, whatever the candidate is.  Then the successors of
that location, which may fail.  Only then, and only if there is a successor,
the slot of the candidate.  A candidate that cannot hold a location therefore
goes unnoticed as long as no transition is enabled, and never hides a guard
that fails.

`StepOutcome` is this order as a table, one rule for each row, and the
outcome of a product step is the one that the table gives.  What is delivered
has the candidate's species and one of the targets; the location that the
candidate came with is gone, and the targets are the same for all candidates.

A product step gives new states and changes none.  In a session that is a
fact about slots: a slot is filled only if the step is told to store its
results there.
-/
import GridBuchi.Proofs.History
import GridBuchi.Proofs.Sessions

namespace GridBuchi

open SessionM

namespace Automaton

variable {A : Automaton} {cfg : Config} {s c : State}

/-! ## The outcomes as a table -/

/-- `q` is the candidate `c`, at the location `l`. -/
def DeliveredAt (c : State) (l : LocationId) (q : State) : Prop :=
  q.dim = c.dim ∧ q.species = c.species ∧ q.location? = some l

/-- `A.StepOutcome cfg s c x`: a product step from `s` to the candidate `c`
goes `x`. -/
inductive StepOutcome (A : Automaton) (cfg : Config) (s c : State) :
    Except (Failure AutomatonError) (List State) → Prop
  | noSource : s.location? = none → StepOutcome A cfg s c (.error (.reported .missingLocation))
  | failed {source : LocationId} {f : Failure AutomatonError} : s.location? = some source →
      A.successors cfg source s = .error f → StepOutcome A cfg s c (.error f)
  | idle {source : LocationId} : s.location? = some source → A.successors cfg source s = .ok [] →
      StepOutcome A cfg s c (.ok [])
  | noSlot {source : LocationId} {targets : List LocationId} : s.location? = some source →
      A.successors cfg source s = .ok targets → targets ≠ [] → c.location? = none →
        StepOutcome A cfg s c (.error (.reported .missingLocation))
  | delivered {source : LocationId} {targets : List LocationId} {found : List State} :
      s.location? = some source → A.successors cfg source s = .ok targets → targets ≠ [] →
        c.location?.isSome → List.Forall₂ (DeliveredAt c) targets found →
          StepOutcome A cfg s c (.ok found)

theorem deliveredAt_iff {l : LocationId} {q : State} :
    DeliveredAt c l q ↔ q = State.product c.species l := by
  constructor
  · rintro ⟨-, hspecies, hlocation⟩
    refine State.eq_of_views ?_ ?_
    · rw [hspecies, State.species_product]
    · rw [hlocation, State.location?_product]
  · rintro rfl
    exact ⟨by rw [State.dim_product, c.length_species], State.species_product _ _,
      State.location?_product _ _⟩

theorem forall₂_deliveredAt_iff {targets : List LocationId} {found : List State} :
    List.Forall₂ (DeliveredAt c) targets found ↔ found = targets.map (State.product c.species) :=
  forall₂_iff_eq_map (f := State.product c.species) fun _ _ => deliveredAt_iff

theorem stepOutcome_synchronize (A : Automaton) (cfg : Config) (s c : State) :
    A.StepOutcome cfg s c (A.synchronize cfg s c).result := by
  rcases A.synchronize_cases cfg s c with
    ⟨hs, hstep⟩ | ⟨source, f, hs, hf, hstep⟩ | ⟨source, ls, hs, hl, hslot, hstep⟩ |
      ⟨source, ls, hs, hl, hslot, hstep⟩
  · rw [hstep]
    exact .noSource hs
  · rw [hstep]
    exact .failed hs hf
  · rw [hstep]
    rw [not_or, Option.not_isSome_iff_eq_none] at hslot
    exact .noSlot hs hl hslot.1 hslot.2
  · rw [hstep]
    by_cases hne : ls = []
    · subst hne
      exact .idle hs hl
    · exact .delivered hs hl hne (hslot.resolve_left hne) (forall₂_deliveredAt_iff.mpr rfl)

theorem StepOutcome.result_eq {x : Except (Failure AutomatonError) (List State)}
    (h : A.StepOutcome cfg s c x) : (A.synchronize cfg s c).result = x := by
  cases h with
  | noSource hs =>
      simp only [synchronize, hs]
      rfl
  | failed hs hf =>
      rw [result_synchronize hs, hf]
      rfl
  | idle hs hl =>
      rw [result_synchronize hs, hl]
      rfl
  | noSlot hs hl hne hc =>
      rw [result_synchronize hs, hl]
      refine if_neg ?_
      rintro (h | h)
      · exact hne h
      · rw [hc] at h
        cases h
  | delivered hs hl hne hc hfound =>
      rw [result_synchronize hs, hl, forall₂_deliveredAt_iff.mp hfound]
      exact if_pos (Or.inr hc)

theorem result_synchronize_eq_iff {x : Except (Failure AutomatonError) (List State)} :
    (A.synchronize cfg s c).result = x ↔ A.StepOutcome cfg s c x := by
  constructor
  · rintro rfl
    exact stepOutcome_synchronize A cfg s c
  · exact StepOutcome.result_eq

/-! ## What the candidate has no say in -/

/-- A candidate with a slot is taken to the targets, whatever it is. -/
theorem locations_synchronize (hc : c.location?.isSome) :
    (A.synchronize cfg s c).result.map (List.map State.location?) =
      match s.location? with
      | none => .error (.reported .missingLocation)
      | some source => (A.successors cfg source s).map (List.map some) := by
  cases hs : s.location? with
  | none =>
      rw [(StepOutcome.noSource hs).result_eq]
      rfl
  | some source =>
      rw [result_synchronize hs]
      dsimp only
      cases A.successors cfg source s with
      | error f => rfl
      | ok ls =>
          show Except.map _ (if ls = [] ∨ c.location?.isSome then _ else _) = _
          rw [if_pos (Or.inr hc)]
          simp [Except.map, State.location?_product]

/-- The location that a candidate comes with is not looked at. -/
theorem synchronize_congr_candidate {d : State} (hc : c.location?.isSome) (hd : d.location?.isSome)
    (h : d.species = c.species) : A.synchronize cfg s d = A.synchronize cfg s c := by
  simp only [synchronize, pairWith_eq, hc, hd, h]

end Automaton

/-! ## What a session has afterwards -/

/-- Storing a list of states fills the numbered slots and no others. -/
theorem after_putStates (into : String) (i : Nat) (ss : List State) (σ : Session) :
    ∃ states, after (putStates into i ss) σ = { σ with states } ∧
      ∀ slot, (∀ j < ss.length, slot ≠ into ++ (i + j).repr) →
        states.get? slot = σ.states.get? slot := by
  induction ss generalizing i σ with
  | nil => exact ⟨σ.states, rfl, fun _ _ => rfl⟩
  | cons s rest ih =>
      obtain ⟨states, hafter, hother⟩ :=
        ih (i + 1) { σ with states := σ.states.put (into ++ i.repr) s }
      refine ⟨states, hafter, ?_⟩
      intro slot hslot
      have hfirst : slot ≠ into ++ i.repr := hslot 0 (by simp)
      rw [hother slot, Slots.get?_put, if_neg hfirst]
      intro j hj
      rw [Nat.add_assoc, Nat.add_comm 1 j]
      exact hslot (j + 1) (by simpa using hj)

/-- What a session does with a product step. -/
theorem step_synchronize_eq {σ : Session} {l lc : StateLiteral} {s c : State} {name : String}
    {A : Automaton} (cfg : Config) (into : Option String) (hl : l.Denotes σ s)
    (hlc : lc.Denotes σ c) (hA : σ.automata.get? name = some A) :
    ∃ states, σ.step (.automaton (.synchronize l lc name cfg into)) =
        (((A.synchronize cfg s c).result.mapError (Failure.map .automaton)).map .states,
          { σ with states, log := σ.log ++ (A.synchronize cfg s c).events }) ∧
      ∀ slot, (∀ target ∈ into, ∀ found, (A.synchronize cfg s c).result = .ok found →
        ∀ j < found.length, slot ≠ target ++ j.repr) → states.get? slot = σ.states.get? slot := by
  rw [← StateLiteral.answer_value_eq_ok] at hl hlc
  rw [← answer_slot_eq_ok] at hA
  rw [Session.step_eq, Command.run, AutomatonCommand.run, l.reads.readOnly.answer_bind_of_ok hl,
    lc.reads.readOnly.answer_bind_of_ok hlc, (readOnly_slot _ name).answer_bind_of_ok hA,
    l.reads.readOnly.after_bind_of_ok hl, lc.reads.readOnly.after_bind_of_ok hlc,
    (readOnly_slot _ name).after_bind_of_ok hA, answer_bind, after_bind, answer_record,
    after_record]
  cases hx : (A.synchronize cfg s c).result with
  | error f => exact ⟨σ.states, rfl, fun _ _ => rfl⟩
  | ok found =>
      cases into with
      | none => exact ⟨σ.states, rfl, fun _ _ => rfl⟩
      | some target =>
          obtain ⟨states, hafter, hother⟩ := after_putStates target 0 found
            { σ with log := σ.log ++ (A.synchronize cfg s c).events }
          refine ⟨states, ?_, ?_⟩
          · refine Prod.ext ?_ ?_
            · show answer (putStates target 0 found >>= fun _ => pure (Answer.states found)) _ = _
              rw [answer_bind, answer_putStates]
              rfl
            · show after (putStates target 0 found >>= fun _ => pure (Answer.states found)) _ = _
              rw [after_bind_pure, hafter]
          · intro slot hslot
            refine hother slot ?_
            intro j hj
            rw [Nat.zero_add]
            exact hslot target rfl found rfl j hj

/-! ## One product step -/

namespace Automaton

/-- All there is to say of a product step from `s` to the candidate `c`. -/
structure Steps (A : Automaton) (cfg : Config) (s c : State) : Prop where
  outcome {x : Except (Failure AutomatonError) (List State)} :
    (A.synchronize cfg s c).result = x ↔ A.StepOutcome cfg s c x
  /-- Where it leads to, or how it fails, is the same for all candidates that
  can be taken there. -/
  locations {d : State} : c.location?.isSome → d.location?.isSome →
    (A.synchronize cfg s d).result.map (List.map State.location?) =
      (A.synchronize cfg s c).result.map (List.map State.location?)
  /-- The location that the candidate comes with makes no difference at
  all. -/
  replaced {d : State} : c.location?.isSome → d.location?.isSome → d.species = c.species →
    A.synchronize cfg s d = A.synchronize cfg s c
  /-- In a session, the step answers with this outcome and logs its events;
  the slots it has read, and all others but those it is told to fill, are left
  as they were. -/
  session {σ : Session} {l lc : StateLiteral} {name : String} (into : Option String) :
    l.Denotes σ s → lc.Denotes σ c → σ.automata.get? name = some A →
    ∃ states, σ.step (.automaton (.synchronize l lc name cfg into)) =
        (((A.synchronize cfg s c).result.mapError (Failure.map .automaton)).map .states,
          { σ with states, log := σ.log ++ (A.synchronize cfg s c).events }) ∧
      ∀ slot, (∀ target ∈ into, ∀ found, (A.synchronize cfg s c).result = .ok found →
        ∀ j < found.length, slot ≠ target ++ j.repr) → states.get? slot = σ.states.get? slot

/-- A product step goes as the table says, by any automaton and between any
two states; the candidate has no say in where it leads to; and it leaves the
state and the candidate as they were. -/
theorem synchronize_steps (A : Automaton) (cfg : Config) (s c : State) : A.Steps cfg s c where
  outcome := result_synchronize_eq_iff
  locations hc hd := by rw [locations_synchronize hd, locations_synchronize hc]
  replaced := synchronize_congr_candidate
  session := step_synchronize_eq cfg

/-- From 3, where both transitions are enabled, a candidate is delivered twice
and its own location 9 is gone; a plain candidate is refused.  Where a guard
fails, or nothing leaves the location, a plain candidate goes unnoticed. -/
theorem waitForThree_steps :
    (build waitForThree).Steps ⟨true, false⟩ (.product [3] 0) (.product [5, 7] 9) ∧
      ((build waitForThree).synchronize ⟨true, false⟩ (.product [3] 0) (.product [5, 7] 9)).result =
        .ok [.product [5, 7] 0, .product [5, 7] 1] ∧
      ((build waitForThree).synchronize ⟨true, false⟩ (.product [3] 0) (.ofSpecies [5, 7])).result =
        .error (.reported .missingLocation) ∧
      ((build waitForThree).synchronize ⟨true, false⟩ (.product [] 0) (.ofSpecies [5, 7])).result =
        .error (.reported (.proposition (.indexOutOfBounds 0 0))) ∧
      ((build [.addLocation "idle"]).synchronize ⟨true, false⟩ (.product [3] 0)
        (.ofSpecies [5, 7])).result = .ok [] := by
  have htargets : (build waitForThree).successors ⟨true, false⟩ 0 (State.product [3] 0) =
      .ok [0, 1] := rfl
  have hfails : (build waitForThree).successors ⟨true, false⟩ 0 (State.product [] 0) =
      .error (.reported (.proposition (.indexOutOfBounds 0 0))) := rfl
  have hnone : (build [.addLocation "idle"]).successors ⟨true, false⟩ 0 (State.product [3] 0) =
      .ok [] := rfl
  refine ⟨synchronize_steps _ _ _ _, ?_, ?_, ?_, ?_⟩
  · exact (synchronize_steps _ _ _ _).outcome.mpr
      (.delivered rfl htargets (by simp) rfl (.cons ⟨rfl, rfl, rfl⟩ (.cons ⟨rfl, rfl, rfl⟩ .nil)))
  · exact (synchronize_steps _ _ _ _).outcome.mpr (.noSlot rfl htargets (by simp) rfl)
  · exact (synchronize_steps _ _ _ _).outcome.mpr (.failed rfl hfails)
  · exact (synchronize_steps _ _ _ _).outcome.mpr (.idle rfl hnone)

end Automaton
end GridBuchi
