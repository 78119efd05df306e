/-
# `GridBuchi.Proofs.Atomicity` — a failing command changes nothing

Nothing in a session undoes what was done before a failure.  That a command
which fails leaves every slot as it was is due to the order in which it goes
about its work: it values its literals, looks its slots up and asks the
library, all of which may fail, and only then fills a slot, which cannot
(`GridBuchi.Proofs.Frames`).

The log is the exception.  What is logged stays logged, and an exploration
logs while it is under way; if one of its product steps fails, the steps
completed before have left their events behind.  A single operation never
does: adding a transition logs once both names are resolved, and a product
step fails before its first result or not at all.
-/
import GridBuchi.Proofs.Sessions

namespace GridBuchi

open SessionM

/-! ## What product steps log -/

namespace Automaton

variable {A : Automaton} {cfg : Config}

theorem level_traced {source l : LocationId} {q : State} {x : Event}
    (hx : x ∈ traced cfg source l q) : x.level = "TRACE" := by
  rw [traced] at hx
  split at hx
  · rw [List.mem_singleton.mp hx]
    rfl
  · cases hx

theorem level_synchronize {s c : State} {x : Event} (hx : x ∈ (A.synchronize cfg s c).events) :
    x.level = "TRACE" := by
  cases h : (A.synchronize cfg s c).result with
  | error f =>
      rw [events_synchronize_of_error h] at hx
      cases hx
  | ok found =>
      obtain ⟨_, _, -, -, -, -, hevents⟩ := synchronize_of_ok h
      rw [hevents] at hx
      obtain ⟨l, -, hx⟩ := List.mem_flatMap.mp hx
      exact level_traced hx

/-- Nothing else is logged by product steps. -/
theorem level_stepEvents {steps : List (State × State)} {x : Event}
    (hx : x ∈ A.stepEvents cfg steps) : x.level = "TRACE" := by
  obtain ⟨_, -, hx⟩ := List.mem_flatMap.mp hx
  exact level_synchronize hx

end Automaton

/-! ## Any command -/

/-- A command explores, or it leaves the session as it is if it fails. -/
theorem Command.explores_or_atomic (c : Command) (σ : Session) :
    (∃ A cfg start candidates, c.Explores σ A cfg start candidates) ∨
      ∀ e, answer c.run σ = .error e → after c.run σ = σ := by
  rcases c.staged_cases with hc | rfl | ⟨l, ls, name, cfg, rfl⟩
  · exact Or.inr (hc.atomic σ)
  · exact Or.inr (Command.atomic (by simp) σ)
  -- an exploration that does not get under way has only read
  · rw [Command.run, AutomatonCommand.run]
    cases hl : answer l.value σ with
    | error _ => exact Or.inr fun _ _ => by rw [after_bind, hl, l.after_value]
    | ok start =>
        rw [l.reads.readOnly.after_bind_of_ok hl]
        cases hls : answer (StateLiteral.values ls) σ with
        | error _ => exact Or.inr fun _ _ => by rw [after_bind, hls, StateLiteral.after_values]
        | ok candidates =>
            rw [(StateLiteral.reads_values ls).readOnly.after_bind_of_ok hls]
            cases hA : answer (slot Session.automata name) σ with
            | error _ => exact Or.inr fun _ _ => by rw [after_bind, hA, after_slot]
            | ok A =>
                exact Or.inl ⟨A, cfg, start, candidates,
                  .explore (StateLiteral.answer_value_eq_ok.mp hl)
                    (StateLiteral.answer_values_eq_ok.mp hls) ((answer_slot_eq_ok σ).mp hA)⟩

section Failing

variable {σ : Session} {c : Command} {e : Failure SessionError}

theorem slots_of_error (h : (σ.step c).1 = .error e) :
    (σ.step c).2 = { σ with log := (σ.step c).2.log } := by
  rcases c.explores_or_atomic σ with ⟨A, cfg, start, candidates, hx⟩ | hc
  · rw [hx.step]
  · rw [Session.step_eq] at h ⊢
    rw [hc e h]

theorem log_of_error (h : (σ.step c).1 = .error e)
    (hx : ∀ A cfg start candidates, ¬c.Explores σ A cfg start candidates) :
    (σ.step c).2.log = σ.log := by
  rcases c.explores_or_atomic σ with ⟨A, cfg, start, candidates, hc⟩ | hc
  · exact absurd hc (hx A cfg start candidates)
  · rw [Session.step_eq] at h ⊢
    rw [hc e h]

/-- A failing exploration is told by its product steps. -/
theorem Command.Explores.of_error {A : Automaton} {cfg : Config} {start : State}
    {candidates : List State} (hx : c.Explores σ A cfg start candidates) (hA : A.WellFormed)
    (h : (σ.step c).1 = .error e) :
    ∃ done last f, A.attempts cfg [start] candidates = done ++ [last] ∧ A.Succeed cfg done ∧
      (A.synchronize cfg last.1 last.2).result = .error f ∧ e = f.map .automaton ∧
      (σ.step c).2.log = σ.log ++ A.stepEvents cfg done ∧
      ∀ x ∈ A.stepEvents cfg done, x.level = "TRACE" := by
  rw [hx.step] at h ⊢
  rcases hA.explore_cases cfg [start] candidates with
    ⟨rows, hrows, -⟩ | ⟨f, hf, done, last, hsteps, hdone, hlast⟩
  · rw [hrows] at h
    cases h
  · rw [hf] at h
    cases h
    refine ⟨done, last, f, hsteps, hdone, hlast, rfl, ?_, fun _ => Automaton.level_stepEvents⟩
    rw [hA.events_explore, hsteps, Automaton.stepEvents_of_failed hlast]

/-- If a command that is atomic fails, all that is left of it is its
failure. -/
theorem step_of_error (hc : Atomic c.run) (h : answer c.run σ = .error e) :
    σ.step c = (.error e, σ) := by
  rw [Session.step_eq, hc σ e h, h]

end Failing

/-! ## Single refusals -/

section Refusals

variable {σ : Session} {name : String}

/-- The value of a slot is handed to the library, which refuses. -/
theorem answer_refused {α β γ ε : Type} {family : Session → Slots α} {f : ε → Failure SessionError}
    {x : α → Except ε β} {k : α → β → SessionM γ} {a : α} {d : ε}
    (ha : (family σ).get? name = some a) (hx : x a = .error d) :
    answer (slot family name >>= fun a => attempt f (x a) >>= k a) σ = .error (f d) := by
  rw [(readOnly_slot family name).answer_bind_of_ok ((answer_slot_eq_ok σ).mpr ha), hx]
  rfl

theorem step_set {s : State} {id : SpeciesId} (value : Word) (hs : σ.states.get? name = some s)
    (hi : s.dim ≤ id.toNat) :
    σ.step (.state (.set name id value)) = (.error (.breach (.writeOutside id.toNat s.dim)), σ) := by
  have hset : s.set id.toNat value = .error (.writeOutside id.toNat s.dim) :=
    dif_neg (Nat.not_lt.mpr hi)
  exact step_of_error (Command.atomic (by simp)) (answer_refused hs hset)

theorem step_arm {p : Proposition} (test : Test) (hp : σ.propositions.get? name = some p) :
    σ.step (.proposition (.arm name test "")) = (.error (.breach .emptyText), σ) := by
  have harm : Proposition.compare test "" = .error .emptyText := dif_pos rfl
  exact step_of_error (Command.atomic (by simp)) (answer_refused hp harm)

theorem step_place {s : State} (location : LocationId) (hs : σ.states.get? name = some s)
    (hslot : s.location? = none) :
    σ.step (.state (.place name location)) = (.ok (.placed false s), σ) := by
  have hplace : s.place? location = none := by rw [State.place?_eq, hslot]; rfl
  rw [← answer_slot_eq_ok] at hs
  rw [Session.step_eq, Command.run, StateCommand.run, (readOnly_slot _ name).answer_bind_of_ok hs,
    (readOnly_slot _ name).after_bind_of_ok hs, hplace]
  rfl

theorem step_setInitial {location : String} {A : Automaton} (hA : σ.automata.get? name = some A)
    (hl : location ∉ A.names) :
    σ.step (.automaton (.setInitial name location)) =
      (.error (ofAutomaton (.unknownLocation location)), σ) := by
  have hset : A.setInitial location = .error (.unknownLocation location) := by
    rw [Automaton.setInitial, Automaton.resolve_unknown (Names.id?_eq_none_iff.mpr hl)]
    rfl
  exact step_of_error (Command.atomic (by simp)) (answer_refused hA hset)

theorem step_setAccepting {location : String} {A : Automaton}
    (hA : σ.automata.get? name = some A) (hl : location ∉ A.names) :
    σ.step (.automaton (.setAccepting name location)) =
      (.error (ofAutomaton (.unknownLocation location)), σ) := by
  have hset : A.setAccepting location = .error (.unknownLocation location) := by
    rw [Automaton.setAccepting, Automaton.resolve_unknown (Names.id?_eq_none_iff.mpr hl)]
    rfl
  exact step_of_error (Command.atomic (by simp)) (answer_refused hA hset)

/-- Adding a transition fails if its names cannot be resolved, and as
resolving them does. -/
theorem answer_addTransition_eq_error_iff {l : TransitionLiteral} {t : Transition} {A : Automaton}
    {e : Failure SessionError} (hl : l.Denotes σ t) (hA : σ.automata.get? name = some A) :
    answer (AutomatonCommand.addTransition l name).run σ = .error e ↔
      ∃ d, A.resolveTransition t = .error d ∧ e = ofAutomaton d := by
  rw [← TransitionLiteral.answer_value_eq_ok] at hl
  rw [← answer_slot_eq_ok] at hA
  rw [AutomatonCommand.run, l.reads.readOnly.answer_bind_of_ok hl,
    (readOnly_slot _ name).answer_bind_of_ok hA]
  simp [answer_bind_eq_error, mapError_eq_error_iff, Automaton.result_addTransition_eq_error_iff,
    putAutomaton, -bind_pure_comp]

theorem step_addTransition {l : TransitionLiteral} {t : Transition} {A : Automaton}
    (hl : l.Denotes σ t) (hA : σ.automata.get? name = some A) :
    ((∃ e, (σ.step (.automaton (.addTransition l name))).1 = .error e) ↔
      t.source ∉ A.names ∨ t.target ∉ A.names) ∧
    (t.source ∉ A.names → σ.step (.automaton (.addTransition l name)) =
      (.error (ofAutomaton (.unknownLocation t.source)), σ)) ∧
    (t.source ∈ A.names → t.target ∉ A.names → σ.step (.automaton (.addTransition l name)) =
      (.error (ofAutomaton (.unknownLocation t.target)), σ)) := by
  have hfails : ∀ {e}, answer (Command.automaton (.addTransition l name)).run σ = .error e ↔
      ∃ d, A.resolveTransition t = .error d ∧ e = ofAutomaton d :=
    answer_addTransition_eq_error_iff hl hA
  have hatomic : Atomic (Command.automaton (.addTransition l name)).run :=
    Command.atomic (by simp)
  have hsource : t.source ∉ A.names → σ.step (.automaton (.addTransition l name)) =
      (.error (ofAutomaton (.unknownLocation t.source)), σ) := by
    intro hs
    exact step_of_error hatomic (hfails.mpr
      ⟨_, Automaton.resolveTransition_eq_error_iff.mpr (Or.inl ⟨hs, rfl⟩), rfl⟩)
  have htarget : t.source ∈ A.names → t.target ∉ A.names →
      σ.step (.automaton (.addTransition l name)) =
        (.error (ofAutomaton (.unknownLocation t.target)), σ) := by
    intro hs ht
    exact step_of_error hatomic (hfails.mpr
      ⟨_, Automaton.resolveTransition_eq_error_iff.mpr (Or.inr ⟨hs, ht, rfl⟩), rfl⟩)
  refine ⟨?_, hsource, htarget⟩
  constructor
  · rintro ⟨e, he⟩
    rw [Session.step_eq] at he
    obtain ⟨d, hd, -⟩ := hfails.mp he
    rcases Automaton.resolveTransition_eq_error_iff.mp hd with ⟨hs, -⟩ | ⟨-, ht, -⟩
    · exact Or.inl hs
    · exact Or.inr ht
  · intro h
    by_cases hs : t.source ∈ A.names
    · have ht : t.target ∉ A.names := h.resolve_left (not_not_intro hs)
      exact ⟨_, congrArg Prod.fst (htarget hs ht)⟩
    · exact ⟨_, congrArg Prod.fst (hsource hs)⟩

theorem step_synchronize {l lc : StateLiteral} {s c : State} {A : Automaton} {cfg : Config}
    {f : Failure AutomatonError} (into : Option String) (hl : l.Denotes σ s) (hlc : lc.Denotes σ c)
    (hA : σ.automata.get? name = some A) (hf : (A.synchronize cfg s c).result = .error f) :
    σ.step (.automaton (.synchronize l lc name cfg into)) = (.error (f.map .automaton), σ) := by
  refine step_of_error (Command.atomic (by simp)) ?_
  rw [← StateLiteral.answer_value_eq_ok] at hl hlc
  rw [← answer_slot_eq_ok] at hA
  rw [Command.run, AutomatonCommand.run, l.reads.readOnly.answer_bind_of_ok hl,
    lc.reads.readOnly.answer_bind_of_ok hlc, (readOnly_slot _ name).answer_bind_of_ok hA]
  refine answer_bind_eq_error.mpr (Or.inl ?_)
  rw [answer_record, hf]
  rfl

end Refusals

/-! ## Every session -/

/-- What there is to know about commands that fail in a session. -/
structure FailsAtomically (σ : Session) : Prop where
  /-- All slots are left as they were. -/
  slots {c : Command} {e : Failure SessionError} : (σ.step c).1 = .error e →
    (σ.step c).2 = { σ with log := (σ.step c).2.log }
  /-- So is the log, unless the command explores. -/
  log {c : Command} {e : Failure SessionError} : (σ.step c).1 = .error e →
    (∀ A cfg start candidates, ¬c.Explores σ A cfg start candidates) → (σ.step c).2.log = σ.log
  /-- An exploration has logged what the product steps completed before the
  one that failed have logged. -/
  explored {c : Command} {A : Automaton} {cfg : Config} {start : State} {candidates : List State}
    {e : Failure SessionError} : c.Explores σ A cfg start candidates → (σ.step c).1 = .error e →
    ∃ done last f, A.attempts cfg [start] candidates = done ++ [last] ∧ A.Succeed cfg done ∧
      (A.synchronize cfg last.1 last.2).result = .error f ∧ e = f.map .automaton ∧
      (σ.step c).2.log = σ.log ++ A.stepEvents cfg done ∧
      ∀ x ∈ A.stepEvents cfg done, x.level = "TRACE"
  /-- A write from the number of species on, the location included, does not
  happen. -/
  set {name : String} {s : State} {id : SpeciesId} (value : Word) :
    σ.states.get? name = some s → s.dim ≤ id.toNat →
    σ.step (.state (.set name id value)) = (.error (.breach (.writeOutside id.toNat s.dim)), σ)
  /-- A proposition that is to be armed with an empty text stays as it is. -/
  arm {name : String} {p : Proposition} (test : Test) : σ.propositions.get? name = some p →
    σ.step (.proposition (.arm name test "")) = (.error (.breach .emptyText), σ)
  /-- A state without a slot is not moved, which is no failure. -/
  place {name : String} {s : State} (location : LocationId) : σ.states.get? name = some s →
    s.location? = none → σ.step (.state (.place name location)) = (.ok (.placed false s), σ)
  setInitial {name location : String} {A : Automaton} : σ.automata.get? name = some A →
    location ∉ A.names → σ.step (.automaton (.setInitial name location)) =
      (.error (ofAutomaton (.unknownLocation location)), σ)
  setAccepting {name location : String} {A : Automaton} : σ.automata.get? name = some A →
    location ∉ A.names → σ.step (.automaton (.setAccepting name location)) =
      (.error (ofAutomaton (.unknownLocation location)), σ)
  /-- A transition is added unless one of its names is unknown; of two
  unknown names the source is reported. -/
  addTransition {l : TransitionLiteral} {t : Transition} {name : String} {A : Automaton} :
    l.Denotes σ t → σ.automata.get? name = some A →
    ((∃ e, (σ.step (.automaton (.addTransition l name))).1 = .error e) ↔
      t.source ∉ A.names ∨ t.target ∉ A.names) ∧
    (t.source ∉ A.names → σ.step (.automaton (.addTransition l name)) =
      (.error (ofAutomaton (.unknownLocation t.source)), σ)) ∧
    (t.source ∈ A.names → t.target ∉ A.names → σ.step (.automaton (.addTransition l name)) =
      (.error (ofAutomaton (.unknownLocation t.target)), σ))
  /-- A product step that fails logs nothing and stores nothing. -/
  synchronize {l lc : StateLiteral} {s c : State} {name : String} {A : Automaton} {cfg : Config}
    {f : Failure AutomatonError} (into : Option String) : l.Denotes σ s → lc.Denotes σ c →
    σ.automata.get? name = some A → (A.synchronize cfg s c).result = .error f →
    σ.step (.automaton (.synchronize l lc name cfg into)) = (.error (f.map .automaton), σ)

/-- In every session that commands lead to, a command that fails leaves the
slots and the log as they were; only an exploration has logged the product
steps that were completed before the one it fails at. -/
theorem failing_commands_are_atomic (commands : List Command) :
    FailsAtomically (Session.reached commands) where
  slots := slots_of_error
  log := log_of_error
  explored hx := hx.of_error (hx.wellFormed (allBuilt_reached commands))
  set value := step_set value
  arm test := step_arm test
  place location := step_place location
  setInitial := step_setInitial
  setAccepting := step_setAccepting
  addTransition := step_addTransition
  synchronize into := step_synchronize into

/-- An automaton with one guarded loop, and a product state over two species
to start from. -/
def guardOnSecond : List Command :=
  [.automaton (.create "A"),
    .automaton (.addLocation "A" "q"),
    .automaton (.addTransition (.guarded "q" "q" [.compare ⟨1, .less, 3⟩ "y < 3"] []) "A"),
    .state (.put (.product [0, 0] 0) "s")]

/-- The first candidate has lost the species that the guard asks for, so the
second product step fails, after the first has been logged. -/
theorem failing_exploration_is_atomic :
    (∃ A, Command.Explores (Session.reached guardOnSecond)
      (.automaton (.explore (.slot "s") [.product [0] 0, .product [0] 0] "A" ⟨false, true⟩)) A
      ⟨false, true⟩ (.product [0, 0] 0) [.product [0] 0, .product [0] 0]) ∧
    ((Session.reached guardOnSecond).step
      (.automaton (.explore (.slot "s") [.product [0] 0, .product [0] 0] "A" ⟨false, true⟩))).1 =
        .error (.breach (.readOutside 1 1)) ∧
    ((Session.reached guardOnSecond).step
      (.automaton (.explore (.slot "s") [.product [0] 0, .product [0] 0] "A" ⟨false, true⟩))).2.log =
        (Session.reached guardOnSecond).log ++ [.productStep 0 0 "[0] @0"] ∧
    FailsAtomically (Session.reached guardOnSecond) := by
  refine ⟨⟨_, .explore rfl (.cons rfl (.cons rfl .nil)) rfl⟩, rfl, ?_, failing_commands_are_atomic _⟩
  decide

end GridBuchi
