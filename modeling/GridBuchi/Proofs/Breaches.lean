/-
# `GridBuchi.Proofs.Breaches` — every way in which a command can breach

A breach is the caller's fault, so it has to be foreseeable: `Breaches` says
of each command when it breaches, and how, without running it.  Four
promises can be broken.  A trusted read has an index from the number of
species on, be it asked for by position or by the first guard that does not
pass; a write has; a proposition is armed with an empty text; or a state is
asked for that is too large to be made.

That nothing else can breach is a matter of going through the commands, and
it includes the accesses the library makes on its own account.  For those to
the tables of an automaton this is shown in `GridBuchi.Proofs.Tables`, with
however many locations; and the words of a state reach as far as its species.
-/
import GridBuchi.Proofs.Carriers
import GridBuchi.Proofs.Sessions
import GridBuchi.Proofs.Tables

namespace GridBuchi

open SessionM

variable {σ : Session}

/-! ## What a command writes out -/

/-- What a command says about propositions and states: a literal of either
kind, or a slot with a transition whose guards have been made before. -/
inductive Written where
  | proposition (l : PropositionLiteral)
  | state (l : StateLiteral)
  | transition (slot : String)

/-- There is such a value. -/
def Written.Present (σ : Session) : Written → Prop
  | .proposition l => ∃ p, l.Denotes σ p
  | .state l => ∃ s, l.Denotes σ s
  | .transition slot => ∃ t, σ.transitions.get? slot = some t

/-- The value breaches when it is made: a proposition is armed with an empty
text, or a state has more species than there is room for. -/
def Written.Breaks : Written → Breach → Prop
  | .proposition l, b => l.ArmsEmpty ∧ b = .emptyText
  | .state l, b => l.Oversized ∧ b = .capacityOverflow
  | .transition _, _ => False

def TransitionLiteral.written : TransitionLiteral → List Written
  | .slot name => [.transition name]
  | .unconditional _ _ => []
  | .guarded _ _ positive negative => (positive ++ negative).map .proposition

/-- The propositions, transitions and states among the arguments of a command,
in the order in which they are valued.  They come before all other
arguments. -/
def Command.written : Command → List Written
  | .proposition (.put l _) => [.proposition l]
  | .proposition (.inspect l) => [.proposition l]
  | .proposition (.evalTrusted l s _) => [.proposition l, .state s]
  | .proposition (.evalChecked l s _) => [.proposition l, .state s]
  | .proposition (.same l m) => [.proposition l, .proposition m]
  | .proposition (.countDistinct ls) => ls.map .proposition
  | .state (.put l _) => [.state l]
  | .state (.inspect l) => [.state l]
  | .state (.get l _) => [.state l]
  | .state (.read l _ _) => [.state l]
  | .state (.read? l _ _) => [.state l]
  | .state (.count l _) => [.state l]
  | .state (.display l _) => [.state l]
  | .state (.same l m) => [.state l, .state m]
  | .state (.countDistinct ls) => ls.map .state
  | .transition (.put l _) => l.written
  | .transition (.inspect l) => l.written
  | .transition (.enabledTrusted l s _) => l.written ++ [.state s]
  | .transition (.enabledChecked l s _) => l.written ++ [.state s]
  | .transition (.same l m) => l.written ++ m.written
  | .automaton (.addTransition l _) => l.written
  | .automaton (.successors l _ _ _ _) => [.state l]
  | .automaton (.synchronize l c _ _ _) => [.state l, .state c]
  | .automaton (.explore l ls _ _) => .state l :: ls.map .state
  | _ => []

/-- The first argument of which there is no such value breaches. -/
def WritesBreach (σ : Session) (ws : List Written) (b : Breach) : Prop :=
  StopsAt (Written.Present σ) (fun w => w.Breaks b) ws

/-! ## Valuing them -/

theorem PropositionLiteral.exists_denotes_iff {ls : List PropositionLiteral} :
    (∃ ps, List.Forall₂ (Denotes σ) ls ps) ↔ ∀ l ∈ ls, ∃ p, Denotes σ l p := by
  induction ls with
  | nil => simp
  | cons l rest ih =>
      rw [List.forall_mem_cons, ← ih]
      constructor
      · rintro ⟨_, hall⟩
        cases hall with
        | cons hp hps => exact ⟨⟨_, hp⟩, _, hps⟩
      · rintro ⟨⟨p, hp⟩, ps, hps⟩
        exact ⟨p :: ps, .cons hp hps⟩

theorem TransitionLiteral.exists_denotes_iff {l : TransitionLiteral} :
    (∃ t, l.Denotes σ t) ↔ ∀ w ∈ l.written, w.Present σ := by
  cases l with
  | slot name => simp [Denotes, written, Written.Present]
  | unconditional _ _ => simp [Denotes, written]
  | guarded source target positive negative =>
      rw [written, List.forall_mem_map, List.forall_mem_append]
      simp only [Denotes, Written.Present, ← PropositionLiteral.exists_denotes_iff]
      constructor
      · rintro ⟨t, ps, ns, hps, hns, -⟩
        exact ⟨⟨ps, hps⟩, ns, hns⟩
      · rintro ⟨⟨ps, hps⟩, ns, hns⟩
        exact ⟨_, ps, ns, hps, hns, rfl⟩

@[simp] theorem not_writesBreach_nil {b : Breach} : ¬WritesBreach σ [] b := not_stopsAt_nil

@[simp] theorem writesBreach_proposition {l : PropositionLiteral} {ws : List Written} {b : Breach} :
    WritesBreach σ (.proposition l :: ws) b ↔
      l.ArmsEmpty ∧ b = .emptyText ∨ (∃ p, l.Denotes σ p) ∧ WritesBreach σ ws b := stopsAt_cons

@[simp] theorem writesBreach_state {l : StateLiteral} {ws : List Written} {b : Breach} :
    WritesBreach σ (.state l :: ws) b ↔
      l.Oversized ∧ b = .capacityOverflow ∨ (∃ s, l.Denotes σ s) ∧ WritesBreach σ ws b :=
  stopsAt_cons

@[simp] theorem writesBreach_propositions {ls : List PropositionLiteral} {b : Breach} :
    WritesBreach σ (ls.map .proposition) b ↔
      StopsAt (fun l => ∃ p, l.Denotes σ p) PropositionLiteral.ArmsEmpty ls ∧ b = .emptyText :=
  stopsAt_map.trans stopsAt_and

@[simp] theorem writesBreach_states {ls : List StateLiteral} {b : Breach} :
    WritesBreach σ (ls.map .state) b ↔
      StopsAt (fun l => ∃ s, l.Denotes σ s) StateLiteral.Oversized ls ∧ b = .capacityOverflow :=
  stopsAt_map.trans stopsAt_and

@[simp] theorem writesBreach_append {l : TransitionLiteral} {ws : List Written} {b : Breach} :
    WritesBreach σ (l.written ++ ws) b ↔
      WritesBreach σ l.written b ∨ (∃ t, l.Denotes σ t) ∧ WritesBreach σ ws b := by
  simp only [WritesBreach, stopsAt_append, TransitionLiteral.exists_denotes_iff]

@[simp] theorem TransitionLiteral.answer_value_eq_breach {l : TransitionLiteral} {b : Breach} :
    answer l.value σ = .error (.breach b) ↔ WritesBreach σ l.written b := by
  cases l with
  | slot name =>
      simp [value, written, WritesBreach, stopsAt_cons, not_stopsAt_nil, Written.Breaks]
  | unconditional _ _ => simp [value, written]
  | guarded source target positive negative =>
      simp [value, written, stopsAt_append, answer_bind_eq_error,
        PropositionLiteral.exists_denotes_iff, or_and_right, and_assoc, -bind_pure_comp,
        -List.map_append]

/-! ## The ways to breach -/

/-- `Breaches σ c b`: in the session `σ`, the command `c` meets the breach `b`.
There is one rule for each way to read a component that is not there, one for
writing it, one for arming a proposition that is there with an empty text,
and one for what the command writes out itself. -/
inductive Command.Breaches (σ : Session) : Command → Breach → Prop
  | get {l : StateLiteral} {s : State} {id : SpeciesId} : l.Denotes σ s → s.dim ≤ id.toNat →
      Breaches σ (.state (.get l id)) (.readOutside s.dim id.toNat)
  | read {l : StateLiteral} {s : State} {i : Nat} (c : Carrier) : l.Denotes σ s → s.dim ≤ i →
      Breaches σ (.state (.read l i c)) (.readOutside s.dim i)
  | evalTrusted {lp : PropositionLiteral} {p : Proposition} {l : StateLiteral} {s : State} {i : Nat}
      (c : Carrier) : lp.Denotes σ p → l.Denotes σ s → p.Outside s i →
      Breaches σ (.proposition (.evalTrusted lp l c)) (.readOutside s.dim i)
  | enabledTrusted {lt : TransitionLiteral} {t : Transition} {l : StateLiteral} {s : State} {i : Nat}
      (c : Carrier) : lt.Denotes σ t → l.Denotes σ s → t.StopsOutside s i →
      Breaches σ (.transition (.enabledTrusted lt l c)) (.readOutside s.dim i)
  | successors {l : StateLiteral} {s : State} {name : String} {A : Automaton} {id : LocationId}
      {cfg : Config} {i : Nat} (c : Carrier) : l.Denotes σ s → σ.automata.get? name = some A →
      cfg.checkIndices = false → id.toNat < A.locationCount → A.StopsOutside id s i →
      Breaches σ (.automaton (.successors l name id cfg c)) (.readOutside s.dim i)
  | synchronize {l lc : StateLiteral} {s c : State} {name : String} {A : Automaton} {cfg : Config}
      {i : Nat} (into : Option String) : l.Denotes σ s → lc.Denotes σ c →
      σ.automata.get? name = some A → cfg.checkIndices = false → A.StepStopsOutside s i →
      Breaches σ (.automaton (.synchronize l lc name cfg into)) (.readOutside s.dim i)
  /-- One of the product steps that are taken does. -/
  | explore {l : StateLiteral} {ls : List StateLiteral} {start : State} {candidates : List State}
      {name : String} {A : Automaton} {cfg : Config} {x : State × State} {i : Nat} :
      l.Denotes σ start → List.Forall₂ (StateLiteral.Denotes σ) ls candidates →
      σ.automata.get? name = some A → cfg.checkIndices = false →
      x ∈ A.attempts cfg [start] candidates → A.StepStopsOutside x.1 i →
      Breaches σ (.automaton (.explore l ls name cfg)) (.readOutside x.1.dim i)
  | set {name : String} {s : State} {id : SpeciesId} (value : Word) :
      σ.states.get? name = some s → s.dim ≤ id.toNat →
      Breaches σ (.state (.set name id value)) (.writeOutside id.toNat s.dim)
  | arm {name : String} {p : Proposition} (test : Test) : σ.propositions.get? name = some p →
      Breaches σ (.proposition (.arm name test "")) .emptyText
  /-- An argument cannot be made. -/
  | written {c : Command} {b : Breach} : WritesBreach σ c.written b → Breaches σ c b

/-! ## No other way -/

theorem State.through_indistinguishable (s : State) (c : Carrier) :
    Indistinguishable (s.through c) s := by
  refine indistinguishable_of_read ?_
  intro i
  rw [Row.read_species, s.species_through, s.read_species]

theorem State.set_eq_error_iff {s : State} {i : Nat} {value : Word} {b : Breach} :
    s.set i value = .error b ↔ s.dim ≤ i ∧ b = .writeOutside i s.dim := by
  rw [set]
  split
  · next h => simp [Nat.not_le.mpr h]
  · next h => simp [Nat.le_of_not_lt h, eq_comm]

section Commands

variable {b : Breach}

/-- Most commands can breach in one way only, by what they write out. -/
theorem Command.breach_iff_of_written {c : Command}
    (hrun : answer c.run σ = .error (.breach b) ↔ WritesBreach σ c.written b)
    (hc : c.Breaches σ b → WritesBreach σ c.written b) :
    answer c.run σ = .error (.breach b) ↔ c.Breaches σ b := by
  rw [hrun]
  exact ⟨.written, hc⟩

theorem ComparisonCommand.breach_iff (c : ComparisonCommand) :
    answer (Command.comparison c).run σ = .error (.breach b) ↔
      (Command.comparison c).Breaches σ b := by
  refine Command.breach_iff_of_written ?_ ?_
  · cases c <;> simp [Command.run, run, Command.written]
  · intro h
    cases h with
    | written h => exact h

theorem RegistryCommand.breach_iff (c : RegistryCommand) :
    answer (Command.registry c).run σ = .error (.breach b) ↔ (Command.registry c).Breaches σ b := by
  refine Command.breach_iff_of_written ?_ ?_
  · cases c <;> simp [Command.run, run, answer_bind_eq_error, putRegistry, Command.written]
  · intro h
    cases h with
    | written h => exact h

theorem StateCommand.breach_iff (c : StateCommand) :
    answer (Command.state c).run σ = .error (.breach b) ↔ (Command.state c).Breaches σ b := by
  cases c with
  | get l id =>
      have hrun : answer (Command.state (.get l id)).run σ = .error (.breach b) ↔
          WritesBreach σ [.state l] b ∨
          ∃ s, l.Denotes σ s ∧ Components.read s id.toNat = .error b := by
        simp [Command.run, run, answer_bind_eq_error]
      simp only [hrun, Components.read_eq_error_iff]
      constructor
      · rintro (h | ⟨s, hs, hi, rfl⟩)
        · exact .written h
        · exact .get hs hi
      · intro h
        cases h with
        | get hs hi => exact Or.inr ⟨_, hs, hi, rfl⟩
        | written h => exact Or.inl h
  | read l i c =>
      have hrun : answer (Command.state (.read l i c)).run σ = .error (.breach b) ↔
          WritesBreach σ [.state l] b ∨ ∃ s, l.Denotes σ s ∧ Components.read s i = .error b := by
        simp [Command.run, run, answer_bind_eq_error, (State.through_indistinguishable _ c).read]
      simp only [hrun, Components.read_eq_error_iff]
      constructor
      · rintro (h | ⟨s, hs, hi, rfl⟩)
        · exact .written h
        · exact .read c hs hi
      · intro h
        cases h with
        | read _ hs hi => exact Or.inr ⟨_, hs, hi, rfl⟩
        | written h => exact Or.inl h
  | set name id value =>
      have hrun : answer (Command.state (.set name id value)).run σ = .error (.breach b) ↔
          ∃ s, σ.states.get? name = some s ∧ s.set id.toNat value = .error b := by
        simp [Command.run, run, answer_bind_eq_error, putState]
      simp only [hrun, State.set_eq_error_iff]
      constructor
      · rintro ⟨s, hs, hi, rfl⟩
        exact .set value hs hi
      · intro h
        cases h with
        | set _ hs hi => exact ⟨_, hs, hi, rfl⟩
        | written h => exact absurd h not_writesBreach_nil
  -- `place` asks whether there is a slot before it writes there
  | place name location =>
      refine Command.breach_iff_of_written ?_ ?_
      · refine iff_of_false ?_ not_writesBreach_nil
        rw [Command.run, run, answer_bind_eq_error]
        rintro (h | ⟨s, -, h⟩)
        · exact answer_slot_ne_breach σ h
        · cases hs : s.place? location with
          | none => simp [hs] at h
          | some moved => simp [hs, putState] at h
      · intro h
        cases h with
        | written h => exact h
  -- everything else looks before it reads, or does not read by position at all
  | _ =>
      refine Command.breach_iff_of_written ?_ ?_
      · simp [Command.run, run, answer_bind_eq_error, putState, Command.written]
      · intro h
        cases h with
        | written h => exact h

theorem PropositionCommand.breach_iff (c : PropositionCommand) :
    answer (Command.proposition c).run σ = .error (.breach b) ↔
      (Command.proposition c).Breaches σ b := by
  cases c with
  | arm name test text =>
      have hrun : answer (Command.proposition (.arm name test text)).run σ = .error (.breach b) ↔
          ∃ p, σ.propositions.get? name = some p ∧ text = "" ∧ b = .emptyText := by
        simp [Command.run, run, answer_bind_eq_error, putProposition, Proposition.compare_eq_error_iff]
      rw [hrun]
      constructor
      · rintro ⟨p, hp, rfl, rfl⟩
        exact .arm test hp
      · intro h
        cases h with
        | arm _ hp => exact ⟨_, hp, rfl, rfl⟩
        | written h => exact absurd h not_writesBreach_nil
  | evalTrusted l ls c =>
      have hrun : answer (Command.proposition (.evalTrusted l ls c)).run σ = .error (.breach b) ↔
          WritesBreach σ [.proposition l, .state ls] b ∨
          ∃ p, l.Denotes σ p ∧ ∃ s, ls.Denotes σ s ∧ p.evalTrusted s = .error b := by
        simp [Command.run, run, answer_bind_eq_error, or_assoc, and_or_left, exists_or,
          (State.through_indistinguishable _ c).evalTrusted]
      simp only [hrun, Proposition.evalTrusted_eq_error_iff]
      constructor
      · rintro (h | ⟨p, hp, s, hs, i, hi, rfl⟩)
        · exact .written h
        · exact .evalTrusted c hp hs hi
      · intro h
        cases h with
        | evalTrusted _ hp hs hi => exact Or.inr ⟨_, hp, _, hs, _, hi, rfl⟩
        | written h => exact Or.inl h
  | _ =>
      refine Command.breach_iff_of_written ?_ ?_
      · simp [Command.run, run, answer_bind_eq_error, putProposition, Command.written]
      · intro h
        cases h with
        | written h => exact h

theorem TransitionCommand.breach_iff (c : TransitionCommand) :
    answer (Command.transition c).run σ = .error (.breach b) ↔
      (Command.transition c).Breaches σ b := by
  cases c with
  | enabledTrusted l ls c =>
      have hrun : answer (Command.transition (.enabledTrusted l ls c)).run σ = .error (.breach b) ↔
          WritesBreach σ (l.written ++ [.state ls]) b ∨
          ∃ t, l.Denotes σ t ∧ ∃ s, ls.Denotes σ s ∧ t.enabledTrusted s = .error b := by
        simp [Command.run, run, answer_bind_eq_error, or_assoc, and_or_left, exists_or,
          (State.through_indistinguishable _ c).enabledTrusted]
      simp only [hrun, Transition.enabledTrusted_eq_error_iff]
      constructor
      · rintro (h | ⟨t, ht, s, hs, i, hi, rfl⟩)
        · exact .written h
        · exact .enabledTrusted c ht hs hi
      · intro h
        cases h with
        | enabledTrusted _ ht hs hi => exact Or.inr ⟨_, ht, _, hs, _, hi, rfl⟩
        | written h => exact Or.inl h
  | _ =>
      refine Command.breach_iff_of_written ?_ ?_
      · simp [Command.run, run, answer_bind_eq_error, putTransition, Command.written]
      · intro h
        cases h with
        | written h => exact h

theorem AutomatonCommand.breach_iff (hσ : AllBuilt σ.automata) (c : AutomatonCommand) :
    answer (Command.automaton c).run σ = .error (.breach b) ↔ (Command.automaton c).Breaches σ b := by
  cases c with
  | successors l name id cfg c =>
      have hrun : answer (Command.automaton (.successors l name id cfg c)).run σ =
            .error (.breach b) ↔
          WritesBreach σ [.state l] b ∨
          ∃ s, l.Denotes σ s ∧ ∃ A, σ.automata.get? name = some A ∧
            A.successors cfg id s = .error (.breach b) := by
        simp [Command.run, run, answer_bind_eq_error,
          (State.through_indistinguishable _ c).successors]
      simp only [hrun, Automaton.successors_eq_breach_iff]
      constructor
      · rintro (h | ⟨s, hs, A, hA, hc, hlt, i, hi, rfl⟩)
        · exact .written h
        · exact .successors c hs hA hc hlt hi
      · intro h
        cases h with
        | successors _ hs hA hc hlt hi => exact Or.inr ⟨_, hs, _, hA, hc, hlt, _, hi, rfl⟩
        | written h => exact Or.inl h
  | synchronize l lc name cfg into =>
      have hrun : answer (Command.automaton (.synchronize l lc name cfg into)).run σ =
            .error (.breach b) ↔
          WritesBreach σ [.state l, .state lc] b ∨
          ∃ s, l.Denotes σ s ∧ ∃ c, lc.Denotes σ c ∧ ∃ A, σ.automata.get? name = some A ∧
            (A.synchronize cfg s c).result = .error (.breach b) := by
        cases into <;>
          simp [Command.run, run, answer_bind_eq_error, or_assoc, and_or_left, exists_or]
      simp only [hrun, Automaton.synchronize_eq_breach_iff]
      constructor
      · rintro (h | ⟨s, hs, c, hlc, A, hA, hc, i, hi, rfl⟩)
        · exact .written h
        · exact .synchronize into hs hlc hA hc hi
      · intro h
        cases h with
        | synchronize _ hs hlc hA hc hi =>
            exact Or.inr ⟨_, hs, _, hlc, _, hA, hc, _, hi, rfl⟩
        | written h => exact Or.inl h
  | explore l ls name cfg =>
      have hrun : answer (Command.automaton (.explore l ls name cfg)).run σ =
            .error (.breach b) ↔
          WritesBreach σ (.state l :: ls.map .state) b ∨
          ∃ s, l.Denotes σ s ∧ ∃ candidates, List.Forall₂ (StateLiteral.Denotes σ) ls candidates ∧
            ∃ A, σ.automata.get? name = some A ∧
              (A.explore cfg [s] candidates).result = .error (.breach b) := by
        simp [Command.run, run, answer_bind_eq_error, or_assoc, and_or_left, exists_or]
      rw [hrun]
      constructor
      -- the exploration itself looks up marks of locations; that these are there is
      -- what `AllBuilt` is needed for
      · rintro (h | ⟨s, hs, candidates, hls, A, hA, hf⟩)
        · exact .written h
        · obtain ⟨x, hx, hf⟩ := (hσ.wellFormed hA).explore_eq_error_iff.mp hf
          obtain ⟨hc, i, hi, rfl⟩ := Automaton.synchronize_eq_breach_iff.mp hf
          exact .explore hs hls hA hc hx hi
      · intro h
        cases h with
        | explore hs hls hA hc hx hi =>
            refine Or.inr ⟨_, hs, _, hls, _, hA,
              (hσ.wellFormed hA).explore_eq_error_iff.mpr ⟨_, hx, ?_⟩⟩
            exact Automaton.synchronize_eq_breach_iff.mpr ⟨hc, _, hi, rfl⟩
        | written h => exact Or.inl h
  | transition name index into =>
      refine Command.breach_iff_of_written ?_ ?_
      · refine iff_of_false ?_ not_writesBreach_nil
        rw [Command.run, run, answer_bind_eq_error]
        rintro (h | ⟨A, -, h⟩)
        · exact answer_slot_ne_breach σ h
        · cases ht : A.transitions[index]? with
          | none => simp [ht] at h
          | some t => cases into <;> simp [ht, putTransition] at h
      · intro h
        cases h with
        | written h => exact h
  | _ =>
      refine Command.breach_iff_of_written ?_ ?_
      · simp [Command.run, run, answer_bind_eq_error, putAutomaton, Command.written]
      · intro h
        cases h with
        | written h => exact h

end Commands

theorem Command.breach_iff (hσ : AllBuilt σ.automata) (c : Command) {b : Breach} :
    answer c.run σ = .error (.breach b) ↔ c.Breaches σ b := by
  cases c with
  | comparison c => exact c.breach_iff
  | proposition c => exact c.breach_iff
  | state c => exact c.breach_iff
  | registry c => exact c.breach_iff
  | transition c => exact c.breach_iff
  | automaton c => exact c.breach_iff hσ
  | showConfig _ | takeEvents =>
      refine breach_iff_of_written (iff_of_false ?_ not_writesBreach_nil) ?_
      · intro h
        cases h
      · intro h
        cases h with
        | written h => exact h

theorem State.dim_le_length (s : State) : s.dim ≤ s.words.length := by
  have h := s.layout
  omega

/-! ## Breaches are foreseen -/

end GridBuchi
