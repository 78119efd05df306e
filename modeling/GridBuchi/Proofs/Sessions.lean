/-
# `GridBuchi.Proofs.Sessions` — what commands do to a session

The automata of a session come from the builder and from nowhere else, so
whatever holds of the empty automaton and survives every call of the builder
holds of every automaton in every session that commands lead to.

An exploration is the one command that is not carried out in stages.  What it
amounts to is said at the end: it leaves the session as it is, but for the
log.
-/
import GridBuchi.Proofs.Frames

namespace GridBuchi

open SessionM

/-! ## Where automata come from -/

/-- What a command can do to the automata: nothing at all, or fill one slot
with the empty automaton, with a copy, or with what a call of the builder
makes of the automaton that is there. -/
inductive AutomataChange (slots : Slots Automaton) : Slots Automaton → Prop
  | none : AutomataChange slots slots
  | created (name : String) : AutomataChange slots (slots.put name .empty)
  | copied (name : String) {source : String} {A : Automaton} :
      slots.get? source = some A → AutomataChange slots (slots.put name A)
  | called {name : String} {A : Automaton} (call : BuilderCall) :
      slots.get? name = some A → AutomataChange slots (slots.put name (A.after call))

section Change

variable {α β : Type} {σ : Session}

/-- Reading first does not change what comes of it. -/
theorem AutomataChange.after_read {m : SessionM α} {f : α → SessionM β} (hm : ReadOnly m)
    (hf : ∀ a, answer m σ = .ok a → AutomataChange σ.automata (after (f a) σ).automata) :
    AutomataChange σ.automata (after (m >>= f) σ).automata := by
  rw [after_bind, hm σ]
  cases h : answer m σ with
  | ok a => exact hf a h
  | error _ => exact .none

/-- A call that is granted brings the automaton along. -/
theorem AutomataChange.granted (call : BuilderCall) {name : String} {A B : Automaton} {a : α}
    {x : Except AutomatonError (α × Automaton)} (hA : σ.automata.get? name = some A)
    (hcall : A.after call = A.afterAnswer x) (hx : x = .ok (a, B)) :
    AutomataChange σ.automata (σ.automata.put name B) := by
  rw [hx] at hcall
  exact (show A.after call = B from hcall) ▸ .called call hA

/-- The automaton in a slot is built on by a call that it may refuse. -/
theorem AutomataChange.request {name : String}
    {x : Automaton → Except AutomatonError (LocationId × Automaton)} (call : BuilderCall)
    (hx : ∀ A : Automaton, A.after call = A.afterAnswer (x A)) :
    AutomataChange σ.automata (after (slot Session.automata name >>= fun A =>
      attempt ofAutomaton (x A) >>= fun y => putAutomaton name y.2 >>= fun _ =>
        pure (Answer.id y.1)) σ).automata := by
  refine .after_read (readOnly_slot _ name) ?_
  intro A hA
  rw [answer_slot_eq_ok] at hA
  refine .after_read (Reads.attempt _ _).readOnly ?_
  rintro ⟨id, B⟩ hy
  rw [answer_attempt, mapError_eq_ok_iff] at hy
  exact .granted call hA (hx A) hy

/-- Most commands may change no automaton. -/
theorem AutomataChange.of_writes {c : Command} (hc : Part.automata ∉ c.writes) :
    AutomataChange σ.automata (after c.run σ).automata := by
  have hkept : (after c.run σ).automata = σ.automata := c.get_after hc σ
  rw [hkept]
  exact .none

end Change

theorem AutomatonCommand.automataChange (c : AutomatonCommand) (σ : Session) :
    AutomataChange σ.automata (after (Command.automaton c).run σ).automata := by
  cases c with
  | create name => exact .created name
  | copy source name =>
      refine .after_read (readOnly_slot _ source) ?_
      intro A hA
      exact .copied name ((answer_slot_eq_ok σ).mp hA)
  | addLocation name location =>
      refine .after_read (readOnly_slot _ name) ?_
      intro A hA
      exact .called (.addLocation location) ((answer_slot_eq_ok σ).mp hA)
  | setInitial name location => exact .request (.setInitial location) fun _ => rfl
  | setAccepting name location => exact .request (.setAccepting location) fun _ => rfl
  | addTransition l name =>
      refine .after_read l.reads.readOnly ?_
      intro t _
      refine .after_read (readOnly_slot _ name) ?_
      intro A hA
      rw [after_bind, answer_record, after_record]
      cases hx : (A.addTransition t).result with
      | error e => exact .none
      | ok x =>
          exact .granted (.addTransition t) ((answer_slot_eq_ok σ).mp hA) rfl hx
  | inspect _ | id? _ _ | nameOf _ _ | isAccepting _ _ | transition _ _ _ | successors _ _ _ _ _
  | synchronize _ _ _ _ _ | explore _ _ _ _ => exact .of_writes (by simp [Command.writes])

theorem Command.automataChange (c : Command) (σ : Session) :
    AutomataChange σ.automata (after c.run σ).automata := by
  cases c with
  | automaton c => exact c.automataChange σ
  | comparison c | proposition c | state c | registry c | transition c =>
      exact .of_writes (by cases c <;> simp [writes])
  | showConfig _ | takeEvents => exact .of_writes (by simp [writes])

/-- Every automaton in the slots has been built. -/
def AllBuilt (slots : Slots Automaton) : Prop :=
  ∀ name A, slots.get? name = some A → ∃ calls, A = Automaton.build calls

theorem AllBuilt.wellFormed {slots : Slots Automaton} (h : AllBuilt slots) {name : String}
    {A : Automaton} (hA : slots.get? name = some A) : A.WellFormed := by
  obtain ⟨calls, rfl⟩ := h name A hA
  exact Automaton.wellFormed_build calls

theorem AllBuilt.put {slots : Slots Automaton} (h : AllBuilt slots) (filled : String)
    {A : Automaton} (hA : ∃ calls, A = Automaton.build calls) : AllBuilt (slots.put filled A) := by
  intro name B hB
  rw [Slots.get?_put] at hB
  split at hB
  · cases hB
    exact hA
  · exact h name B hB

theorem AllBuilt.change {slots slots' : Slots Automaton} (h : AllBuilt slots)
    (hc : AutomataChange slots slots') : AllBuilt slots' := by
  cases hc with
  | none => exact h
  | created name => exact h.put name ⟨[], rfl⟩
  | copied name hA => exact h.put name (h _ _ hA)
  | called call hA =>
      obtain ⟨calls, rfl⟩ := h _ _ hA
      exact h.put _ ⟨calls ++ [call], (Automaton.build_snoc calls call).symm⟩

theorem AllBuilt.run {σ : Session} (h : AllBuilt σ.automata) (commands : List Command) :
    AllBuilt (σ.run commands).2.automata := by
  induction commands generalizing σ with
  | nil => exact h
  | cons c rest ih =>
      have hstep : AllBuilt (σ.step c).2.automata := by
        rw [Session.step_eq]
        exact h.change (c.automataChange σ)
      exact ih hstep

/-- The session that a list of commands leads to. -/
def Session.reached (commands : List Command) : Session := (fresh.run commands).2

/-- Whatever commands lead to a session, its automata have been built. -/
theorem allBuilt_reached (commands : List Command) :
    AllBuilt (Session.reached commands).automata := by
  refine AllBuilt.run ?_ commands
  intro name A hA
  cases hA

/-! ## Explorations -/

/-- The command explores `A` from `start` along `candidates`: its literals
all stand for something. -/
inductive Command.Explores (σ : Session) :
    Command → Automaton → Config → State → List State → Prop
  | explore {l : StateLiteral} {ls : List StateLiteral} {name : String} {A : Automaton}
      {cfg : Config} {start : State} {candidates : List State} :
      l.Denotes σ start → List.Forall₂ (StateLiteral.Denotes σ) ls candidates →
      σ.automata.get? name = some A →
      Explores σ (.automaton (.explore l ls name cfg)) A cfg start candidates

theorem Command.Explores.wellFormed {σ : Session} {c : Command} {A : Automaton} {cfg : Config}
    {start : State} {candidates : List State} (h : c.Explores σ A cfg start candidates)
    (hσ : AllBuilt σ.automata) : A.WellFormed := by
  obtain ⟨-, -, hA⟩ := h
  exact hσ.wellFormed hA

/-- An exploration changes nothing but the log, failing or not. -/
theorem Command.Explores.step {σ : Session} {c : Command} {A : Automaton} {cfg : Config}
    {start : State} {candidates : List State} (h : c.Explores σ A cfg start candidates) :
    σ.step c =
      (((A.explore cfg [start] candidates).result.mapError (Failure.map .automaton)).map .rows,
        { σ with log := σ.log ++ (A.explore cfg [start] candidates).events }) := by
  obtain ⟨hl, hls, hA⟩ := h
  rw [← StateLiteral.answer_value_eq_ok] at hl
  rw [← StateLiteral.answer_values_eq_ok] at hls
  rw [← answer_slot_eq_ok] at hA
  rw [Session.step_eq, Command.run, AutomatonCommand.run]
  simp only [(StateLiteral.reads _).readOnly.answer_bind_of_ok hl,
    (StateLiteral.reads _).readOnly.after_bind_of_ok hl,
    (StateLiteral.reads_values _).readOnly.answer_bind_of_ok hls,
    (StateLiteral.reads_values _).readOnly.after_bind_of_ok hls,
    (readOnly_slot _ _).answer_bind_of_ok hA, (readOnly_slot _ _).after_bind_of_ok hA,
    answer_bind, after_bind_pure, answer_record, after_record]
  rfl

end GridBuchi
