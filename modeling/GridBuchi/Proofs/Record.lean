/-
# `GridBuchi.Proofs.Record` — the log is a record of what was done

Two kinds of things are worth a line in the log: that an automaton took in a
transition, and that a traced product step delivered a state.  Here it is
shown that the log has these lines and no others, each once and in the order
in which things happened.

What a command is bound to log is said beforehand, from the session it finds:
`additions` are the transitions it adds, `productCalls` the product steps it
asks for.  `log_step` compares that with the log it leaves.  Over a run the
log may be handed over and emptied any number of times, so what is compared
there is all that was handed over and what is left at the end.
-/
import GridBuchi.Proofs.Atomicity

namespace GridBuchi

open SessionM

/-! ## What one product step logs -/

/-- The event shows the step from `s` to `q`: their locations, and `q` as
text. -/
def Event.Shows (s q : State) (e : Event) : Prop :=
  ∃ source target, s.location? = some source ∧ q.location? = some target ∧
    e = .productStep source target q.text

/-- A product step that is asked for. -/
structure ProductCall where
  automaton : Automaton
  cfg : Config
  state : State
  candidate : State

namespace ProductCall

def outcome (x : ProductCall) : Logged (Failure AutomatonError) (List State) :=
  x.automaton.synchronize x.cfg x.state x.candidate

/-- Traced, a product step logs each state it delivers, in order; otherwise,
and if it fails, it logs nothing. -/
structure LogsItsStates (x : ProductCall) : Prop where
  traced {found : List State} : x.cfg.trace = true → x.outcome.result = .ok found →
    List.Forall₂ (Event.Shows x.state) found x.outcome.events
  untraced : x.cfg.trace = false → x.outcome.events = []
  failed {f : Failure AutomatonError} : x.outcome.result = .error f → x.outcome.events = []

end ProductCall

/-- A step that is not traced logs nothing, whatever comes of it. -/
theorem Automaton.events_synchronize_of_untraced {A : Automaton} {cfg : Config}
    (htrace : cfg.trace = false) (s c : State) : (A.synchronize cfg s c).events = [] := by
  cases h : (A.synchronize cfg s c).result with
  | error f => exact events_synchronize_of_error h
  | ok found =>
      obtain ⟨source, ls, -, -, -, -, hevents⟩ := synchronize_of_ok h
      rw [hevents, List.flatMap_eq_nil_iff]
      intro l _
      simp [traced, htrace]

theorem ProductCall.logsItsStates (x : ProductCall) : x.LogsItsStates where
  untraced htrace := Automaton.events_synchronize_of_untraced htrace x.state x.candidate
  failed hf := Automaton.events_synchronize_of_error hf
  traced {found} htrace hfound := by
    obtain ⟨source, ls, hs, -, -, rfl, hevents⟩ := Automaton.synchronize_of_ok hfound
    rw [outcome, hevents]
    -- each target makes one state and one event
    clear hevents hfound
    induction ls with
    | nil => exact .nil
    | cons l rest ih =>
        have hline : Automaton.traced x.cfg source l (.product x.candidate.species l) =
            [.productStep source l (State.product x.candidate.species l).text] :=
          if_pos htrace
        rw [List.map_cons, List.flatMap_cons, hline]
        exact .cons ⟨source, l, hs, State.location?_product _ _, rfl⟩ ih

/-! ## What one command logs -/

namespace Command

/-- The transitions a command adds: the one it was given, if that is
answered. -/
def additions (σ : Session) : Command → List Transition
  | .automaton (.addTransition l name) =>
      match (σ.step (.automaton (.addTransition l name))).1, answer l.value σ with
      | .ok _, .ok t => [t]
      | _, _ => []
  | _ => []

/-- The product steps a command asks for: one for a product step on its own,
and those an exploration takes, in the order in which it takes them.  A
command whose literals have no values asks for none. -/
def productCalls (σ : Session) : Command → List ProductCall
  | .automaton (.synchronize l lc name cfg _) =>
      match answer l.value σ, answer lc.value σ, answer (slot Session.automata name) σ with
      | .ok s, .ok c, .ok A => [⟨A, cfg, s, c⟩]
      | _, _, _ => []
  | .automaton (.explore l ls name cfg) =>
      match answer l.value σ, answer (StateLiteral.values ls) σ,
          answer (slot Session.automata name) σ with
      | .ok s, .ok cs, .ok A => (A.attempts cfg [s] cs).map fun x => ⟨A, cfg, x.1, x.2⟩
      | _, _, _ => []
  | _ => []

/-- What a command is bound to log. -/
def logged (σ : Session) (c : Command) : List Event :=
  (c.additions σ).map (fun t => .transitionAdded t.text) ++
    (c.productCalls σ).flatMap (fun x => x.outcome.events)

end Command

/-- What is logged is logged, as long as nothing after it touches the log. -/
theorem SessionM.log_after_record {ε α β : Type} {g : ε → Failure SessionError} {x : Logged ε α}
    {f : α → SessionM β} (hf : ∀ a, Keeps Session.log (f a)) (σ : Session) :
    (after (record g x >>= f) σ).log = σ.log ++ x.events := by
  rw [after_bind, after_record, answer_record]
  cases x.result.mapError g with
  | ok a => exact hf a _
  | error _ => rfl

theorem SessionM.Fills.keeps_log {α : Type} {ws : List Part} {m : SessionM α} (h : Fills ws m)
    (hlog : Part.log ∉ ws) : Keeps Session.log m := by
  refine h.keeps ?_
  intro part hpart
  have hne : part ≠ .log := by
    rintro rfl
    exact hlog hpart
  exact Part.hidden_get hne

namespace Automaton

variable {A : Automaton}

/-- Resolving gives a transition other ids, and these do not show. -/
theorem text_of_resolveTransition {t u : Transition} (h : A.resolveTransition t = .ok u) :
    u.text = t.text := by
  obtain ⟨i, j, rfl⟩ := exists_ids_of_resolveTransition h
  rfl

/-- A transition that is added is logged. -/
theorem events_addTransition_of_ok {t : Transition} {x : Nat × Automaton}
    (h : (A.addTransition t).result = .ok x) :
    (A.addTransition t).events = [.transitionAdded t.text] := by
  rw [result_addTransition] at h
  rw [addTransition]
  cases hu : A.resolveTransition t with
  | error e =>
      rw [hu] at h
      cases h
  | ok u =>
      rw [← text_of_resolveTransition hu]
      rfl

end Automaton

section Step

variable {σ : Session}

theorem log_addTransition (l : TransitionLiteral) (name : String) :
    (σ.step (.automaton (.addTransition l name))).2.log =
      σ.log ++ (Command.automaton (.addTransition l name)).logged σ := by
  have hcalls : (Command.automaton (.addTransition l name)).productCalls σ = [] := rfl
  rw [Command.logged, hcalls, List.flatMap_nil, List.append_nil, Command.additions]
  cases ha : (σ.step (.automaton (.addTransition l name))).1 with
  | error e =>
      rw [log_of_error ha nofun]
      exact (List.append_nil _).symm
  | ok a =>
      rw [Session.step_eq] at ha ⊢
      obtain ⟨t, ht, ha⟩ := answer_bind_eq_ok.mp ha
      rw [l.after_value] at ha
      obtain ⟨A, hA, ha⟩ := answer_bind_eq_ok.mp ha
      rw [after_slot] at ha
      obtain ⟨x, hx, -⟩ := answer_bind_eq_ok.mp ha
      rw [answer_record, mapError_eq_ok_iff] at hx
      have hlog : (after (AutomatonCommand.addTransition l name).run σ).log =
          σ.log ++ (A.addTransition t).events := by
        rw [AutomatonCommand.run, l.reads.readOnly.after_bind_of_ok ht,
          (readOnly_slot _ _).after_bind_of_ok hA]
        refine log_after_record ?_ σ
        rintro ⟨_, B⟩
        exact fun _ => rfl
      rw [Automaton.events_addTransition_of_ok hx] at hlog
      rw [ht]
      exact hlog

theorem log_synchronize (l lc : StateLiteral) (name : String) (cfg : Config)
    (into : Option String) :
    (σ.step (.automaton (.synchronize l lc name cfg into))).2.log =
      σ.log ++ (Command.automaton (.synchronize l lc name cfg into)).logged σ := by
  have hadd : (Command.automaton (.synchronize l lc name cfg into)).additions σ = [] := rfl
  rw [Command.logged, hadd, List.map_nil, List.nil_append, Session.step_eq, Command.run,
    AutomatonCommand.run, Command.productCalls]
  cases hl : answer l.value σ with
  | error e => simp [after_bind, hl]
  | ok s =>
      rw [l.reads.readOnly.after_bind_of_ok hl]
      cases hlc : answer lc.value σ with
      | error e => simp [after_bind, hlc]
      | ok c =>
          rw [lc.reads.readOnly.after_bind_of_ok hlc]
          cases hA : answer (slot Session.automata name) σ with
          | error e => simp [after_bind, hA]
          | ok A =>
              rw [(readOnly_slot _ _).after_bind_of_ok hA, log_after_record]
              · exact congrArg _ (List.append_nil _).symm
              · intro found
                cases into with
                | none => exact fun _ => rfl
                | some target =>
                    have hfills : Fills [.states] (putStates target 0 found) :=
                      fills_putStates List.mem_cons_self target 0 found
                    exact (hfills.keeps_log (by simp)).bind fun _ _ => rfl

theorem log_explore (hσ : AllBuilt σ.automata) (l : StateLiteral) (ls : List StateLiteral)
    (name : String) (cfg : Config) :
    (σ.step (.automaton (.explore l ls name cfg))).2.log =
      σ.log ++ (Command.automaton (.explore l ls name cfg)).logged σ := by
  have hadd : (Command.automaton (.explore l ls name cfg)).additions σ = [] := rfl
  rw [Command.logged, hadd, List.map_nil, List.nil_append, Session.step_eq, Command.run,
    AutomatonCommand.run, Command.productCalls]
  cases hl : answer l.value σ with
  | error e => simp [after_bind, hl]
  | ok s =>
      rw [l.reads.readOnly.after_bind_of_ok hl]
      cases hls : answer (StateLiteral.values ls) σ with
      | error e => simp [after_bind, hls]
      | ok cs =>
          rw [(StateLiteral.reads_values ls).readOnly.after_bind_of_ok hls]
          cases hA : answer (slot Session.automata name) σ with
          | error e => simp [after_bind, hA]
          | ok A =>
              have hbuilt : A.WellFormed := hσ.wellFormed ((answer_slot_eq_ok σ).mp hA)
              rw [(readOnly_slot _ _).after_bind_of_ok hA,
                log_after_record (fun _ _ => rfl), hbuilt.events_explore]
              simp only [Automaton.stepEvents, List.flatMap_map]
              rfl

/-- A command adds to the log what it is bound to log; only handing the log
over does more than that. -/
theorem log_step (hσ : AllBuilt σ.automata) {c : Command} (hc : c ≠ .takeEvents) :
    (σ.step c).2.log = σ.log ++ c.logged σ := by
  -- a command that may not change the log is not bound to log anything
  have unlogged (hlog : Part.log ∉ c.writes) (hl : c.logged σ = []) :
      (σ.step c).2.log = σ.log ++ c.logged σ := by
    rw [hl, List.append_nil, Session.step_eq]
    exact c.get_after hlog σ
  cases c with
  | comparison c | proposition c | state c | registry c | transition c =>
      exact unlogged (by cases c <;> simp [Command.writes]) rfl
  | showConfig cfg => exact unlogged (by simp [Command.writes]) rfl
  | takeEvents => exact absurd rfl hc
  | automaton c =>
      cases c with
      | addTransition l name => exact log_addTransition l name
      | synchronize l lc name cfg into => exact log_synchronize l lc name cfg into
      | explore l ls name cfg => exact log_explore hσ l ls name cfg
      | _ => exact unlogged (by simp [Command.writes]) rfl

end Step

/-! ## The two levels -/

/-- The events of a log at one level. -/
def eventsAt (level : String) (es : List Event) : List Event := es.filter (fun e => e.level = level)

theorem eventsAt_append (level : String) (es fs : List Event) :
    eventsAt level (es ++ fs) = eventsAt level es ++ eventsAt level fs :=
  List.filter_append ..

theorem eventsAt_flatMap {α : Type} (level : String) (as : List α) (f : α → List Event) :
    eventsAt level (as.flatMap f) = as.flatMap (fun a => eventsAt level (f a)) :=
  List.filter_flatMap ..

theorem eventsAt_of_forall {level : String} {es : List Event} (h : ∀ e ∈ es, e.level = level) :
    eventsAt level es = es :=
  List.filter_eq_self.mpr fun e he => decide_eq_true (h e he)

theorem eventsAt_of_forall_ne {level : String} {es : List Event} (h : ∀ e ∈ es, e.level ≠ level) :
    eventsAt level es = [] :=
  List.filter_eq_nil_iff.mpr fun e he hl => h e he (of_decide_eq_true hl)

theorem level_additions {ts : List Transition} {e : Event}
    (he : e ∈ ts.map (fun t => .transitionAdded t.text)) : e.level = "DEBUG" := by
  obtain ⟨t, -, rfl⟩ := List.mem_map.mp he
  rfl

theorem level_productCalls {xs : List ProductCall} {e : Event}
    (he : e ∈ xs.flatMap (fun x => x.outcome.events)) : e.level = "TRACE" := by
  obtain ⟨x, -, he⟩ := List.mem_flatMap.mp he
  exact Automaton.level_synchronize he

theorem debugs_logged (σ : Session) (c : Command) :
    eventsAt "DEBUG" (c.logged σ) = (c.additions σ).map (fun t => .transitionAdded t.text) := by
  have hcalls : ∀ e ∈ (c.productCalls σ).flatMap (fun x => x.outcome.events), e.level ≠ "DEBUG" := by
    intro e he
    simp [level_productCalls he]
  rw [Command.logged, eventsAt_append, eventsAt_of_forall fun _ => level_additions,
    eventsAt_of_forall_ne hcalls, List.append_nil]

theorem traces_logged (σ : Session) (c : Command) :
    eventsAt "TRACE" (c.logged σ) = (c.productCalls σ).flatMap (fun x => x.outcome.events) := by
  have hadded : ∀ e ∈ (c.additions σ).map (fun t => Event.transitionAdded t.text),
      e.level ≠ "TRACE" := by
    intro e he
    simp [level_additions he]
  rw [Command.logged, eventsAt_append, eventsAt_of_forall_ne hadded,
    eventsAt_of_forall fun _ => level_productCalls, List.nil_append]

/-! ## What a run logs -/

/-- A command and the session it finds. -/
structure Moment where
  session : Session
  command : Command

/-- What the session answers. -/
def Moment.answer (m : Moment) : Except (Failure SessionError) Answer :=
  (m.session.step m.command).1

/-- The events that are handed over with an answer. -/
def Command.handed : Command → Except (Failure SessionError) Answer → List Event
  | .takeEvents, .ok (.events es) => es
  | _, _ => []

def Moment.handed (m : Moment) : List Event := m.command.handed m.answer

/-- The moments of a run. -/
def Session.trail (σ : Session) : List Command → List Moment
  | [] => []
  | c :: rest => ⟨σ, c⟩ :: (σ.step c).2.trail rest

theorem Session.answers_run (σ : Session) (commands : List Command) :
    (σ.run commands).1 = (σ.trail commands).map Moment.answer := by
  induction commands generalizing σ with
  | nil => rfl
  | cons c rest ih => exact congrArg ((σ.step c).1 :: ·) (ih (σ.step c).2)

/-- Everything there is to be seen of the log by the end of a run: what was
handed over, and then what is left. -/
def Session.history (σ : Session) (commands : List Command) : List Event :=
  (σ.trail commands).flatMap Moment.handed ++ (σ.run commands).2.log

theorem Session.history_cons (σ : Session) (c : Command) (rest : List Command) :
    σ.history (c :: rest) = Moment.handed ⟨σ, c⟩ ++ (σ.step c).2.history rest := by
  simp only [history, trail, run, List.flatMap_cons, List.append_assoc]

/-- A command hands events over, adds events, or does neither; nothing gets
lost. -/
theorem Session.handed_append_log {σ : Session} (hσ : AllBuilt σ.automata) (c : Command) :
    Moment.handed ⟨σ, c⟩ ++ (σ.step c).2.log = σ.log ++ c.logged σ := by
  by_cases hc : c = .takeEvents
  · subst hc
    rfl
  · have hkept : Moment.handed ⟨σ, c⟩ = [] := by
      cases c with
      | takeEvents => exact absurd rfl hc
      | _ => rfl
    rw [hkept, List.nil_append]
    exact log_step hσ hc

/-- Through a whole run, the log is what its commands are bound to log. -/
theorem Session.history_eq {σ : Session} (hσ : AllBuilt σ.automata) (commands : List Command) :
    σ.history commands =
      σ.log ++ (σ.trail commands).flatMap (fun m => m.command.logged m.session) := by
  induction commands generalizing σ with
  | nil => exact (List.append_nil _).symm
  | cons c rest ih =>
      have hnext : AllBuilt (σ.step c).2.automata := AllBuilt.run hσ [c]
      rw [history_cons, ih hnext, ← List.append_assoc, handed_append_log hσ, trail,
        List.flatMap_cons, List.append_assoc]

theorem Session.debugs_history {σ : Session} (hσ : AllBuilt σ.automata) (commands : List Command) :
    eventsAt "DEBUG" (σ.history commands) = eventsAt "DEBUG" σ.log ++
      ((σ.trail commands).flatMap fun m => m.command.additions m.session).map
        (fun t => .transitionAdded t.text) := by
  simp only [history_eq hσ, eventsAt_append, eventsAt_flatMap, debugs_logged, List.map_flatMap]

theorem Session.traces_history {σ : Session} (hσ : AllBuilt σ.automata) (commands : List Command) :
    eventsAt "TRACE" (σ.history commands) = eventsAt "TRACE" σ.log ++
      ((σ.trail commands).flatMap fun m => m.command.productCalls m.session).flatMap
        (fun x => x.outcome.events) := by
  simp only [history_eq hσ, eventsAt_append, eventsAt_flatMap, traces_logged, List.flatMap_assoc]

end GridBuchi
