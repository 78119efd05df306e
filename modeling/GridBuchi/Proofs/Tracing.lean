/-
# `GridBuchi.Proofs.Tracing` — tracing does not change what is done

A trace flag decides whether product steps leave lines in the log.  The log
is read by nothing but the command that hands it over, so two runs that
differ in trace flags alone fill the same slots, give the same answers and
log the same additions of transitions; they differ in how a configuration is
shown and in the TRACE lines that are handed over.

Two sessions are compared by `Session.SameButTraces`: the slots are equal,
and the logs agree on what is not a trace.  Two computations `Agree` if they
lead from such sessions to such sessions with outcomes that are alike.  This
is closed under sequencing.  A computation that is carried out in stages
agrees with itself, which is to say that it does not look at the log; the
three commands that have a trace flag come down to what the library does
under two configurations.

The last section puts this together with what `GridBuchi.Proofs.Record` says
of one run.
-/
import GridBuchi.Proofs.Lockstep
import GridBuchi.Proofs.Record

namespace GridBuchi

open SessionM

/-! ## Logs that agree on what is not a trace -/

/-- The same transitions are logged, in the same order. -/
def SameDebugs (es fs : List Event) : Prop := eventsAt "DEBUG" es = eventsAt "DEBUG" fs

theorem Sequential.sameDebugs : Sequential SameDebugs where
  nil := rfl
  append {es es' fs fs'} he hf := by
    rw [SameDebugs, eventsAt_append, eventsAt_append, he, hf]

/-! ## The library under two configurations -/

/-- Both evaluate alike. -/
def Config.SameButTrace (cfg cfg' : Config) : Prop := cfg.checkIndices = cfg'.checkIndices

namespace Automaton

variable {A : Automaton} {cfg cfg' : Config}

theorem successors_sameButTrace {α : Type} [Components α] (h : cfg.SameButTrace cfg')
    (id : LocationId) (a : α) : A.successors cfg id a = A.successors cfg' id a := by
  have htargets : enabledTargets cfg a (A.leaving id) = enabledTargets cfg' a (A.leaving id) := by
    refine enabledTargets_congr_self ?_
    intro t _
    rw [Transition.enabled, Transition.enabled, h]
  rw [successors, successors, htargets]

theorem debugs_traced (cfg : Config) (source l : LocationId) (q : State) :
    eventsAt "DEBUG" (traced cfg source l q) = [] := by
  rw [traced]
  split <;> rfl

/-- A product step delivers the same states, traced or not. -/
theorem synchronize_sameButTrace (h : cfg.SameButTrace cfg') (s c : State) :
    LoggedAlike SameDebugs Eq Eq (A.synchronize cfg s c) (A.synchronize cfg' s c) := by
  refine synchronize_self_alike .sameDebugs ?_ rfl ?_
  · intro source
    rw [successors_sameButTrace h]
    exact .refl _
  · intro source l q
    exact (debugs_traced cfg source l q).trans (debugs_traced cfg' source l q).symm

theorem explore_sameButTrace (h : cfg.SameButTrace cfg') (frontier candidates : List State) :
    LoggedAlike SameDebugs Eq Eq (A.explore cfg frontier candidates)
      (A.explore cfg' frontier candidates) := by
  refine explore_self_alike .sameDebugs (synchronize_sameButTrace h) ?_ frontier candidates
  intro s
  exact (Alike.refl (A.accepts s)).imp (fun he => congrArg _ he) id

end Automaton

/-! ## Computations in two sessions -/

/-- The session with another log. -/
def Session.withLog (σ : Session) (log : List Event) : Session := { σ with log }

/-- The slots are the same, and the logs agree on what is not a trace. -/
inductive Session.SameButTraces (σ : Session) : Session → Prop
  | withLog {log : List Event} : SameDebugs σ.log log → SameButTraces σ (σ.withLog log)

namespace SessionM

variable {α β ε : Type}

/-- In sessions that differ in traces only the two computations succeed with
related values or fail in the same way, and the sessions differ in traces
only after that. -/
def Agree (R : α → α → Prop) (m m' : SessionM α) : Prop :=
  ∀ σ τ : Session, σ.SameButTraces τ →
    Alike Eq R (answer m σ) (answer m' τ) ∧ (after m σ).SameButTraces (after m' τ)

/-- The computation does not depend on what has been traced. -/
def Oblivious (m : SessionM α) : Prop := Agree Eq m m

theorem Agree.bind {S : β → β → Prop} {m m' : SessionM α} {f f' : α → SessionM β}
    (hm : Agree Eq m m') (hf : ∀ a, Agree S (f a) (f' a)) : Agree S (m >>= f) (m' >>= f') := by
  intro σ τ h
  obtain ⟨hanswer, hafter⟩ := hm σ τ h
  rw [answer_bind, answer_bind, after_bind, after_bind]
  generalize answer m σ = x at hanswer ⊢
  generalize answer m' τ = y at hanswer ⊢
  cases hanswer with
  | @ok a _ hab =>
      subst hab
      exact hf a _ _ hafter
  | error hef => exact ⟨.error hef, hafter⟩

theorem Oblivious.bind {m : SessionM α} {f : α → SessionM β} (hm : Oblivious m)
    (hf : ∀ a, Oblivious (f a)) : Oblivious (m >>= f) := Agree.bind hm hf

theorem oblivious_pure (a : α) : Oblivious (pure a) := fun _ _ h => ⟨.ok rfl, h⟩

theorem oblivious_attempt (f : ε → Failure SessionError) (x : Except ε α) :
    Oblivious (attempt f x) := by
  intro σ τ h
  rw [answer_attempt, answer_attempt, after_attempt, after_attempt]
  exact ⟨.refl _, h⟩

/-- A slot is looked up in a family, and a family is not the log. -/
theorem oblivious_slot {family : Session → Slots α}
    (hfamily : ∀ σ log, family (σ.withLog log) = family σ) (name : String) :
    Oblivious (slot family name) := by
  rintro σ _ ⟨hlog⟩
  rw [answer_slot, answer_slot, after_slot, after_slot, hfamily]
  exact ⟨.refl _, .withLog hlog⟩

/-- Filling a slot and replacing the log can be done in either order. -/
theorem oblivious_fill {part : Part} (hpart : part.IsFamily) (f : part.Content → part.Content) :
    Oblivious (modify fun σ => part.set (f (part.get σ)) σ : SessionM Unit) := by
  rintro σ _ ⟨hlog⟩
  cases part with
  | log => exact hpart.elim
  | _ => exact ⟨.ok rfl, .withLog hlog⟩

/-- Two outcomes that agree but for their traces are taken over. -/
theorem agree_record {x x' : Logged ε α} (f : ε → Failure SessionError)
    (h : LoggedAlike SameDebugs Eq Eq x x') : Agree Eq (record f x) (record f x') := by
  rintro σ _ ⟨hlog⟩
  rw [answer_record, answer_record, after_record, after_record]
  refine ⟨h.result.mapError (fun he => congrArg f he), .withLog ?_⟩
  exact Sequential.sameDebugs.append hlog h.events

/-! ## Stages do not look at the log -/

theorem Reads.oblivious {m : SessionM α} (h : Reads m) : Oblivious m := by
  induction h with
  | pure a => exact oblivious_pure a
  | attempt f x => exact oblivious_attempt f x
  | slot hfamily name => exact oblivious_slot hfamily name
  | bind _ _ ihm ihf => exact ihm.bind ihf

theorem Fills.oblivious {ws : List Part} {m : SessionM α} (h : Fills ws m) : Oblivious m := by
  induction h with
  | pure a => exact oblivious_pure a
  | fill part f hpart _ => exact oblivious_fill hpart f
  | bind _ _ ihm ihf => exact ihm.bind ihf

theorem Staged.oblivious {ws : List Part} {m : SessionM α} (h : Staged ws m) : Oblivious m := by
  induction h with
  | fills h => exact h.oblivious
  | read hm _ ih => exact hm.oblivious.bind ih
  | record _ _ hf => exact Agree.bind (agree_record _ ⟨rfl, .refl _⟩) fun a => (hf a).oblivious

end SessionM

/-! ## Commands with a trace flag -/

section Flags

variable {cfg cfg' : Config} (h : cfg.SameButTrace cfg')
include h

theorem agree_successors (l : StateLiteral) (name : String) (id : LocationId) (c : Carrier) :
    Agree Eq (AutomatonCommand.successors l name id cfg c).run
      (AutomatonCommand.successors l name id cfg' c).run := by
  refine Agree.bind l.reads.oblivious ?_
  intro s
  refine Agree.bind (oblivious_slot (fun _ _ => rfl) name) ?_
  intro A
  rw [Automaton.successors_sameButTrace h]
  exact (oblivious_attempt _ _).bind fun _ => oblivious_pure _

theorem agree_synchronize (l lc : StateLiteral) (name : String) (into : Option String) :
    Agree Eq (AutomatonCommand.synchronize l lc name cfg into).run
      (AutomatonCommand.synchronize l lc name cfg' into).run := by
  refine Agree.bind l.reads.oblivious ?_
  intro s
  refine Agree.bind lc.reads.oblivious ?_
  intro c
  refine Agree.bind (oblivious_slot (fun _ _ => rfl) name) ?_
  intro A
  refine Agree.bind (agree_record _ (A.synchronize_sameButTrace h s c)) ?_
  intro found
  cases into with
  | none => exact oblivious_pure _
  | some target =>
      have hfills : Fills [.states] (putStates target 0 found) :=
        fills_putStates List.mem_cons_self target 0 found
      exact hfills.oblivious.bind fun _ => oblivious_pure _

theorem agree_explore (l : StateLiteral) (ls : List StateLiteral) (name : String) :
    Agree Eq (AutomatonCommand.explore l ls name cfg).run
      (AutomatonCommand.explore l ls name cfg').run := by
  refine Agree.bind l.reads.oblivious ?_
  intro start
  refine Agree.bind (StateLiteral.reads_values ls).oblivious ?_
  intro candidates
  refine Agree.bind (oblivious_slot (fun _ _ => rfl) name) ?_
  intro A
  refine Agree.bind (agree_record _ (A.explore_sameButTrace h [start] candidates)) ?_
  intro rows
  exact oblivious_pure _

end Flags

/-! ## One command under two trace flags -/

/-- The same command, but for trace flags. -/
inductive Command.SameButTrace : Command → Command → Prop
  | refl (c : Command) : SameButTrace c c
  | successors {l : StateLiteral} {name : String} {id : LocationId} {cfg cfg' : Config} {c : Carrier} :
      cfg.SameButTrace cfg' → SameButTrace (.automaton (.successors l name id cfg c))
        (.automaton (.successors l name id cfg' c))
  | synchronize {l lc : StateLiteral} {name : String} {cfg cfg' : Config} {into : Option String} :
      cfg.SameButTrace cfg' → SameButTrace (.automaton (.synchronize l lc name cfg into))
        (.automaton (.synchronize l lc name cfg' into))
  | explore {l : StateLiteral} {ls : List StateLiteral} {name : String} {cfg cfg' : Config} :
      cfg.SameButTrace cfg' → SameButTrace (.automaton (.explore l ls name cfg))
        (.automaton (.explore l ls name cfg'))
  | showConfig {cfg cfg' : Config} :
      cfg.SameButTrace cfg' → SameButTrace (.showConfig cfg) (.showConfig cfg')

/-- Two answers to a command are the same, failures included; only what shows
the trace flag itself or hands traces over may differ there. -/
inductive Command.AnswersAlike : Command → Except (Failure SessionError) Answer →
    Except (Failure SessionError) Answer → Prop
  | same {c : Command} (a : Except (Failure SessionError) Answer) : AnswersAlike c a a
  | config {cfg cfg' : Config} : cfg.SameButTrace cfg' →
      AnswersAlike (.showConfig cfg) (.ok (.config cfg)) (.ok (.config cfg'))
  | events {es es' : List Event} : SameDebugs es es' →
      AnswersAlike .takeEvents (.ok (.events es)) (.ok (.events es'))

theorem Command.oblivious {c : Command} (hc : c ≠ .takeEvents) : Oblivious c.run := by
  rcases c.staged_cases with hstaged | rfl | ⟨l, ls, name, cfg, rfl⟩
  · exact hstaged.oblivious
  · exact absurd rfl hc
  · exact agree_explore rfl l ls name

/-- One step from sessions that differ in traces only. -/
theorem step_sameButTrace {σ τ : Session} (h : σ.SameButTraces τ) {c d : Command}
    (hcd : c.SameButTrace d) :
    c.AnswersAlike (σ.step c).1 (τ.step d).1 ∧ (σ.step c).2.SameButTraces (τ.step d).2 := by
  have agreeing : Agree Eq c.run d.run →
      c.AnswersAlike (σ.step c).1 (τ.step d).1 ∧ (σ.step c).2.SameButTraces (τ.step d).2 := by
    intro hrun
    obtain ⟨hanswer, hafter⟩ := hrun σ τ h
    rw [Session.step_eq, Session.step_eq]
    refine ⟨?_, hafter⟩
    show c.AnswersAlike (answer c.run σ) (answer d.run τ)
    generalize answer c.run σ = x at hanswer ⊢
    generalize answer d.run τ = y at hanswer ⊢
    cases hanswer with
    | ok hab => exact hab ▸ .same _
    | error hef => exact hef ▸ .same _
  cases hcd with
  | refl =>
      by_cases hc : c = .takeEvents
      · subst hc
        obtain ⟨hlog⟩ := h
        refine ⟨.events hlog, ?_⟩
        show (σ.withLog []).SameButTraces ((σ.withLog []).withLog [])
        exact .withLog rfl
      · exact agreeing (Command.oblivious hc)
  | successors hcfg => exact agreeing (agree_successors hcfg _ _ _ _)
  | synchronize hcfg => exact agreeing (agree_synchronize hcfg _ _ _ _)
  | explore hcfg => exact agreeing (agree_explore hcfg _ _ _)
  | showConfig hcfg => exact ⟨.config hcfg, h⟩

/-! ## Two runs -/

/-- At this point of two runs the sessions, the commands and the answers are
the same but for traces. -/
structure Moment.SameButTraces (m n : Moment) : Prop where
  session : m.session.SameButTraces n.session
  command : m.command.SameButTrace n.command
  answer : m.command.AnswersAlike m.answer n.answer

theorem Command.AnswersAlike.handed {c : Command} {a b : Except (Failure SessionError) Answer}
    (h : c.AnswersAlike a b) : SameDebugs (c.handed a) (c.handed b) := by
  cases h with
  | same _ | config _ => rfl
  | events hes => exact hes

theorem Command.SameButTrace.handed {c d : Command} (h : c.SameButTrace d)
    (a : Except (Failure SessionError) Answer) : c.handed a = d.handed a := by
  cases h <;> rfl

theorem Moment.SameButTraces.handed {m n : Moment} (h : m.SameButTraces n) :
    SameDebugs m.handed n.handed := by
  have hanswers : SameDebugs (m.command.handed m.answer) (m.command.handed n.answer) :=
    h.answer.handed
  rwa [h.command.handed n.answer] at hanswers

theorem run_sameButTraces {σ τ : Session} (h : σ.SameButTraces τ) {commands commands' : List Command}
    (hcommands : List.Forall₂ Command.SameButTrace commands commands') :
    List.Forall₂ Moment.SameButTraces (σ.trail commands) (τ.trail commands') ∧
      (σ.run commands).2.SameButTraces (τ.run commands').2 := by
  induction hcommands generalizing σ τ with
  | nil => exact ⟨.nil, h⟩
  | @cons c d rest rest' hcd _ ih =>
      obtain ⟨hanswer, hafter⟩ := step_sameButTrace h hcd
      obtain ⟨htrail, hrun⟩ := ih hafter
      exact ⟨.cons ⟨h, hcd, hanswer⟩ htrail, hrun⟩

theorem debugs_history_sameButTraces {σ τ : Session} (h : σ.SameButTraces τ)
    {commands commands' : List Command}
    (hcommands : List.Forall₂ Command.SameButTrace commands commands') :
    SameDebugs (σ.history commands) (τ.history commands') := by
  obtain ⟨htrail, hrun⟩ := run_sameButTraces h hcommands
  have hlog : ∀ {σ τ : Session}, σ.SameButTraces τ → SameDebugs σ.log τ.log := by
    rintro σ _ ⟨hlog⟩
    exact hlog
  exact Sequential.sameDebugs.append
    (Sequential.sameDebugs.flatMap (htrail.imp fun _ _ hmn => hmn.handed)) (hlog hrun)

/-! ## A faithful record -/

/-- What there is to know about the log of a run, and about the runs that
differ from it in trace flags. -/
structure RecordsFaithfully (commands : List Command) : Prop where
  answers : (Session.fresh.run commands).1 = (Session.fresh.trail commands).map Moment.answer
  /-- What is handed over and what is left at the end is what the commands are
  bound to log, one after the other. -/
  complete : Session.fresh.history commands =
    (Session.fresh.trail commands).flatMap fun m => m.command.logged m.session
  /-- The DEBUG events are the texts of the transitions added, each once. -/
  additions : eventsAt "DEBUG" (Session.fresh.history commands) =
    ((Session.fresh.trail commands).flatMap fun m => m.command.additions m.session).map
      fun t => .transitionAdded t.text
  /-- The TRACE events are those of the product steps, on their own or in an
  exploration, each of which logs the states it delivers or nothing. -/
  steps : eventsAt "TRACE" (Session.fresh.history commands) =
    ((Session.fresh.trail commands).flatMap fun m => m.command.productCalls m.session).flatMap
      fun x => x.outcome.events
  step (x : ProductCall) : x.LogsItsStates
  /-- Other trace flags leave slots, answers and DEBUG events the same. -/
  inert {commands' : List Command} : List.Forall₂ Command.SameButTrace commands commands' →
    List.Forall₂ Moment.SameButTraces (Session.fresh.trail commands)
      (Session.fresh.trail commands') ∧
    (Session.reached commands).SameButTraces (Session.reached commands') ∧
    SameDebugs (Session.fresh.history commands) (Session.fresh.history commands')

/-- The log of a run is a record of the transitions it added and of the states
its traced product steps delivered, and whether steps are traced shows
nowhere else. -/
theorem runs_are_recorded (commands : List Command) : RecordsFaithfully commands := by
  have hfresh : AllBuilt Session.fresh.automata := allBuilt_reached []
  have hsame : Session.fresh.SameButTraces Session.fresh := .withLog rfl
  refine ⟨Session.answers_run _ commands, Session.history_eq hfresh commands,
    Session.debugs_history hfresh commands, Session.traces_history hfresh commands,
    ProductCall.logsItsStates, ?_⟩
  intro commands' hcommands
  obtain ⟨htrail, hrun⟩ := run_sameButTraces hsame hcommands
  exact ⟨htrail, hrun, debugs_history_sameButTraces hsame hcommands⟩

/-- Two loops at one location, a transition that is refused, and a path whose
second candidate has no slot. -/
def twoLoops (trace : Bool) : List Command :=
  [.automaton (.create "A"),
    .automaton (.addLocation "A" "q"),
    .automaton (.addTransition (.unconditional "q" "q") "A"),
    .automaton (.addTransition (.unconditional "q" "r") "A"),
    .automaton (.addTransition (.unconditional "q" "q") "A"),
    .takeEvents,
    .automaton (.explore (.product [0] 0) [.product [1] 0, .plain [2]] "A" ⟨false, trace⟩)]

/-- The frontier keeps one of the two results of the first product step, the
log has both; the step that fails has left nothing there. -/
theorem twoLoops_recorded :
    RecordsFaithfully (twoLoops true) ∧
    Session.fresh.history (twoLoops true) =
      [.transitionAdded "q->q \x7bguard (true);\x7d", .transitionAdded "q->q \x7bguard (true);\x7d",
        .productStep 0 0 "[1] @0", .productStep 0 0 "[1] @0"] ∧
    (Session.reached (twoLoops false)).log = [] ∧
    (Session.reached (twoLoops true)).SameButTraces (Session.reached (twoLoops false)) := by
  have hflag : List.Forall₂ Command.SameButTrace (twoLoops true) (twoLoops false) :=
    .cons (.refl _) (.cons (.refl _) (.cons (.refl _) (.cons (.refl _) (.cons (.refl _)
      (.cons (.refl _) (.cons (.explore rfl) .nil))))))
  have hrecord : RecordsFaithfully (twoLoops true) := runs_are_recorded (twoLoops true)
  exact ⟨hrecord, by decide, by decide, (hrecord.inert hflag).2.1⟩

end GridBuchi
