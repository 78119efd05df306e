/-
# `GridBuchi.Proofs.Frames` — what a command leaves alone

Commands go about their work in one order.  They read first: they value their
literals, look slots up and ask the library, all of which may fail.  The few
that log then take a logged outcome over, and there is nothing in it if it
fails.  Last they fill slots, which cannot fail.

`Staged` is this order, and `Command.writes` says which parts of a session
each command may change.  `Command.staged_cases` goes through the commands once
and finds them staged within these parts; whatever is to be said about
all commands follows from that by induction on the stages.  Two commands are
not staged.  An exploration logs while it is under way, and may fail after
that; handing over the log looks at the log.

A session is looked at through a `view`: one family of slots, or several of
them, or the log.  A command `Keeps` the view, failing or not, if the parts
it may change are hidden from it.
-/
import GridBuchi.Proofs.Attempts
import GridBuchi.Proofs.Literals

namespace GridBuchi

/-! ## The parts of a session -/

/-- The five families of slots, and the log. -/
inductive Part where
  | propositions
  | states
  | transitions
  | registries
  | automata
  | log
deriving DecidableEq

namespace Part

/-- What a part holds. -/
def Content : Part → Type
  | .propositions => Slots Proposition
  | .states => Slots State
  | .transitions => Slots Transition
  | .registries => Slots Registry
  | .automata => Slots Automaton
  | .log => List Event

/-- The part is a family of slots. -/
def IsFamily : Part → Prop
  | .log => False
  | _ => True

def get : (part : Part) → Session → part.Content
  | .propositions, σ => σ.propositions
  | .states, σ => σ.states
  | .transitions, σ => σ.transitions
  | .registries, σ => σ.registries
  | .automata, σ => σ.automata
  | .log, σ => σ.log

def set : (part : Part) → part.Content → Session → Session
  | .propositions, content, σ => { σ with propositions := content }
  | .states, content, σ => { σ with states := content }
  | .transitions, content, σ => { σ with transitions := content }
  | .registries, content, σ => { σ with registries := content }
  | .automata, content, σ => { σ with automata := content }
  | .log, content, σ => { σ with log := content }

/-- Nothing of the part is to be seen in `view`. -/
def Hidden {γ : Type} (view : Session → γ) (part : Part) : Prop :=
  ∀ content σ, view (part.set content σ) = view σ

/-- A part is hidden from every other. -/
theorem hidden_get {part other : Part} (h : part ≠ other) : part.Hidden other.get := by
  intro content σ
  cases part <;> cases other <;> first | rfl | exact absurd rfl h

end Part

namespace SessionM

variable {α β γ ε : Type} {view : Session → γ} {ws : List Part}

/-! ## Stages -/

/-- The computation leaves what `view` shows of a session as it is. -/
def Keeps (view : Session → γ) (m : SessionM α) : Prop := ∀ σ, view (after m σ) = view σ

/-- The computation fills slots in the parts `ws`, and does nothing else. -/
inductive Fills (ws : List Part) : {α : Type} → SessionM α → Prop
  | pure {α : Type} (a : α) : Fills ws (pure a)
  | fill (part : Part) (f : part.Content → part.Content) : part.IsFamily → part ∈ ws →
      Fills ws (modify fun σ => part.set (f (part.get σ)) σ)
  | bind {α β : Type} {m : SessionM α} {f : α → SessionM β} :
      Fills ws m → (∀ a, Fills ws (f a)) → Fills ws (m >>= f)

/-- The computation reads, then may take a logged outcome over that is empty
if it fails, then fills slots; it changes nothing but the parts `ws`. -/
inductive Staged (ws : List Part) : {α : Type} → SessionM α → Prop
  | fills {α : Type} {m : SessionM α} : Fills ws m → Staged ws m
  | read {α β : Type} {m : SessionM α} {f : α → SessionM β} :
      Reads m → (∀ a, Staged ws (f a)) → Staged ws (m >>= f)
  | record {ε α β : Type} {g : ε → Failure SessionError} {x : Logged ε α} {f : α → SessionM β} :
      .log ∈ ws → (∀ e, x.result = .error e → x.events = []) → (∀ a, Fills ws (f a)) →
      Staged ws (record g x >>= f)

/-- Fills one family of slots and answers. -/
theorem Fills.answering (part : Part) (f : part.Content → part.Content) (hpart : part.IsFamily)
    (hw : part ∈ ws) (b : β) :
    Fills ws ((modify fun σ => part.set (f (part.get σ)) σ) >>= fun _ => Pure.pure b) :=
  .bind (.fill part f hpart hw) fun _ => .pure b

/-- Reads and answers. -/
theorem Staged.answering {m : SessionM α} (hm : Reads m) (f : α → β) :
    Staged ws (m >>= fun a => Pure.pure (f a)) := .read hm fun a => .fills (.pure (f a))

/-! ### Failing -/

theorem Fills.total {m : SessionM α} (h : Fills ws m) : Total m := by
  induction h with
  | pure a => exact total_pure a
  | fill part f _ _ => exact total_modify _
  | bind _ _ ihm ihf => exact ihm.bind ihf

/-- If a staged computation fails it has only read. -/
theorem Staged.atomic {m : SessionM α} (h : Staged ws m) : Atomic m := by
  induction h with
  | fills h => exact h.total.atomic
  | read hm _ ih => exact hm.readOnly.bind_atomic ih
  | record _ hx hf => exact (atomic_record hx).bind_total fun a => (hf a).total

/-! ### Keeping -/

theorem ReadOnly.keeps {m : SessionM α} (h : ReadOnly m) : Keeps view m := by
  intro σ
  rw [h σ]

theorem Keeps.bind {m : SessionM α} {f : α → SessionM β} (hm : Keeps view m)
    (hf : ∀ a, Keeps view (f a)) : Keeps view (m >>= f) := by
  intro σ
  rw [after_bind]
  cases answer m σ with
  | ok a => exact (hf a _).trans (hm σ)
  | error _ => exact hm σ

theorem keeps_record (h : Part.Hidden view .log) (g : ε → Failure SessionError) (x : Logged ε α) :
    Keeps view (record g x) := by
  intro σ
  rw [after_record]
  exact h _ σ

theorem Fills.keeps (hview : ∀ part ∈ ws, part.Hidden view) {m : SessionM α} (h : Fills ws m) :
    Keeps view m := by
  induction h with
  | pure a => exact fun _ => rfl
  | fill part f _ hw => exact fun σ => hview part hw _ σ
  | bind _ _ ihm ihf => exact ihm.bind ihf

theorem Staged.keeps (hview : ∀ part ∈ ws, part.Hidden view) {m : SessionM α} (h : Staged ws m) :
    Keeps view m := by
  induction h with
  | fills h => exact h.keeps hview
  | read hm _ ih => exact hm.readOnly.keeps.bind ih
  | record hlog _ hf => exact (keeps_record (hview _ hlog) _ _).bind fun a => (hf a).keeps hview

end SessionM

open SessionM

/-! ## The commands, stage by stage -/

/-- The parts of a session that a command may change. -/
def Command.writes : Command → List Part
  | .proposition (.put ..) | .proposition (.arm ..) | .proposition (.disarm ..) => [.propositions]
  | .state (.put ..) | .state (.set ..) | .state (.place ..) => [.states]
  | .registry (.create ..) | .registry (.copy ..) | .registry (.register ..) => [.registries]
  | .transition (.put ..) | .automaton (.transition ..) => [.transitions]
  | .automaton (.create ..) | .automaton (.copy ..) | .automaton (.addLocation ..)
  | .automaton (.setInitial ..) | .automaton (.setAccepting ..) => [.automata]
  | .automaton (.addTransition ..) => [.automata, .log]
  | .automaton (.synchronize ..) => [.states, .log]
  | .automaton (.explore ..) | .takeEvents => [.log]
  | _ => []

theorem fills_putStates {ws : List Part} (h : Part.states ∈ ws) (into : String) (i : Nat)
    (ss : List State) : Fills ws (putStates into i ss) := by
  induction ss generalizing i with
  | nil => exact .pure ()
  | cons s rest ih =>
      exact .bind (.fill .states (Slots.put · (into ++ i.repr) s) trivial h) fun _ => ih (i + 1)

@[simp] theorem answer_putStates (into : String) (i : Nat) (ss : List State) (σ : Session) :
    answer (putStates into i ss) σ = .ok () := by
  have hfills : Fills [.states] (putStates into i ss) :=
    fills_putStates List.mem_cons_self into i ss
  obtain ⟨_, h⟩ := hfills.total σ
  exact h

theorem ComparisonCommand.staged (c : ComparisonCommand) : Staged [] c.run := by
  cases c with
  | ofCode _ => exact .answering (.attempt _ _) _
  | describe _ | holds _ _ _ => exact .fills (.pure _)

theorem PropositionCommand.staged (c : PropositionCommand) :
    Staged (Command.proposition c).writes c.run := by
  cases c with
  | put l name =>
      refine .read l.reads fun p => .fills ?_
      exact .answering .propositions (Slots.put · name p) trivial List.mem_cons_self _
  | arm name test text =>
      refine .read (.slot (fun _ _ => rfl) name) fun _ => .read (.attempt _ _) fun p => .fills ?_
      exact .answering .propositions (Slots.put · name p) trivial List.mem_cons_self _
  | disarm name caption =>
      refine .read (.slot (fun _ _ => rfl) name) fun _ => .fills ?_
      exact .answering .propositions (Slots.put · name _) trivial List.mem_cons_self _
  | inspect l => exact .answering l.reads _
  | evalTrusted l ls c | evalChecked l ls c =>
      exact .read l.reads fun _ => .read ls.reads fun _ => .answering (.attempt _ _) _
  | same l m => exact .read l.reads fun _ => .answering m.reads _
  | countDistinct ls => exact .answering (PropositionLiteral.reads_values ls) _

theorem StateCommand.staged (c : StateCommand) : Staged (Command.state c).writes c.run := by
  cases c with
  | put l name =>
      refine .read l.reads fun s => .fills ?_
      exact .answering .states (Slots.put · name s) trivial List.mem_cons_self _
  | set name id value =>
      refine .read (.slot (fun _ _ => rfl) name) fun _ => .read (.attempt _ _) fun s => .fills ?_
      exact .answering .states (Slots.put · name s) trivial List.mem_cons_self _
  | place name location =>
      refine .read (.slot (fun _ _ => rfl) name) fun s => .fills ?_
      cases s.place? location with
      | none => exact .pure _
      | some moved =>
          exact .answering .states (Slots.put · name moved) trivial List.mem_cons_self _
  | inspect l | read? l _ _ | count l _ => exact .answering l.reads _
  | get l _ | read l _ _ => exact .read l.reads fun _ => .answering (.attempt _ _) _
  | display l registry =>
      exact .read l.reads fun _ => .answering (.slot (fun _ _ => rfl) registry) _
  | same l m => exact .read l.reads fun _ => .answering m.reads _
  | countDistinct ls => exact .answering (StateLiteral.reads_values ls) _

theorem RegistryCommand.staged (c : RegistryCommand) :
    Staged (Command.registry c).writes c.run := by
  cases c with
  | create name _ =>
      exact .fills (.answering .registries (Slots.put · name _) trivial List.mem_cons_self _)
  | copy source name | register source name =>
      refine .read (.slot (fun _ _ => rfl) source) fun r => .fills ?_
      exact .answering .registries (Slots.put · _ _) trivial List.mem_cons_self _
  | id? name _ | name? name _ | inspect name =>
      exact .answering (.slot (fun _ _ => rfl) name) _

theorem TransitionCommand.staged (c : TransitionCommand) :
    Staged (Command.transition c).writes c.run := by
  cases c with
  | put l name =>
      refine .read l.reads fun t => .fills ?_
      exact .answering .transitions (Slots.put · name t) trivial List.mem_cons_self _
  | inspect l => exact .answering l.reads _
  | enabledTrusted l ls c | enabledChecked l ls c =>
      exact .read l.reads fun _ => .read ls.reads fun _ => .answering (.attempt _ _) _
  | same l m => exact .read l.reads fun _ => .answering m.reads _

theorem AutomatonCommand.staged {c : AutomatonCommand}
    (hc : ∀ l ls name cfg, c ≠ .explore l ls name cfg) :
    Staged (Command.automaton c).writes c.run := by
  cases c with
  | create name =>
      exact .fills (.answering .automata (Slots.put · name _) trivial List.mem_cons_self _)
  | copy source name | addLocation source name =>
      refine .read (.slot (fun _ _ => rfl) source) fun A => .fills ?_
      exact .answering .automata (Slots.put · _ _) trivial List.mem_cons_self _
  | setInitial name _ | setAccepting name _ =>
      refine .read (.slot (fun _ _ => rfl) name) fun _ => .read (.attempt _ _) fun x => .fills ?_
      exact .answering .automata (Slots.put · name x.2) trivial List.mem_cons_self _
  | addTransition l name =>
      refine .read l.reads fun t => .read (.slot (fun _ _ => rfl) name) fun A => ?_
      refine .record (by simp [Command.writes])
        (fun _ => Automaton.events_addTransition_of_error) fun x => ?_
      exact .answering .automata (Slots.put · name x.2) trivial List.mem_cons_self _
  | transition name index into =>
      refine .read (.slot (fun _ _ => rfl) name) fun A => .fills ?_
      cases A.transitions[index]? with
      | none => exact .pure _
      | some t =>
          cases into with
          | none => exact .pure _
          | some target =>
              exact .answering .transitions (Slots.put · target t) trivial List.mem_cons_self _
  | synchronize l lc name cfg into =>
      refine .read l.reads fun s => .read lc.reads fun c =>
        .read (.slot (fun _ _ => rfl) name) fun A => ?_
      refine .record (by simp [Command.writes])
        (fun _ => Automaton.events_synchronize_of_error) fun found => ?_
      cases into with
      | none => exact .pure _
      | some target =>
          exact .bind (fills_putStates List.mem_cons_self target 0 found) fun _ => .pure _
  | inspect name | id? name _ => exact .answering (.slot (fun _ _ => rfl) name) _
  | nameOf name _ | isAccepting name _ =>
      exact .read (.slot (fun _ _ => rfl) name) fun _ => .answering (.attempt _ _) _
  | successors l name _ _ _ =>
      exact .read l.reads fun _ => .read (.slot (fun _ _ => rfl) name) fun _ =>
        .answering (.attempt _ _) _
  | explore l ls name cfg => exact absurd rfl (hc l ls name cfg)

namespace Command

/-- Every command is staged unless it explores or hands over the log. -/
theorem staged_cases (c : Command) :
    Staged c.writes c.run ∨ c = .takeEvents ∨
      ∃ l ls name cfg, c = .automaton (.explore l ls name cfg) := by
  cases c with
  | comparison c => exact Or.inl c.staged
  | proposition c => exact Or.inl c.staged
  | state c => exact Or.inl c.staged
  | registry c => exact Or.inl c.staged
  | transition c => exact Or.inl c.staged
  | automaton c =>
      by_cases hc : ∃ l ls name cfg, c = .explore l ls name cfg
      · obtain ⟨l, ls, name, cfg, rfl⟩ := hc
        exact Or.inr (Or.inr ⟨l, ls, name, cfg, rfl⟩)
      · push Not at hc
        exact Or.inl (AutomatonCommand.staged hc)
  | showConfig _ => exact Or.inl (.fills (.pure _))
  | takeEvents => exact Or.inr (Or.inl rfl)

/-- Every command is atomic unless it explores. -/
theorem atomic {c : Command} (hx : ∀ l ls name cfg, c ≠ .automaton (.explore l ls name cfg)) :
    Atomic c.run := by
  rcases c.staged_cases with hc | rfl | ⟨l, ls, name, cfg, rfl⟩
  · exact hc.atomic
  · intro σ e he
    cases he
  · exact absurd rfl (hx l ls name cfg)

/-- What is seen of a session is the same after a command that may change
only what is hidden. -/
theorem keeps {γ : Type} {view : Session → γ} (c : Command)
    (h : ∀ part ∈ c.writes, part.Hidden view) : Keeps view c.run := by
  rcases c.staged_cases with hc | rfl | ⟨l, ls, name, cfg, rfl⟩
  · exact hc.keeps h
  · exact fun σ => h .log List.mem_cons_self [] σ
  -- an exploration reads, and takes the outcome over even if it has failed
  · have hlog : Part.Hidden view .log := h .log List.mem_cons_self
    refine l.reads.readOnly.keeps.bind ?_
    intro start
    refine (StateLiteral.reads_values ls).readOnly.keeps.bind ?_
    intro candidates
    refine (readOnly_slot _ name).keeps.bind ?_
    intro A
    refine (keeps_record hlog _ _).bind ?_
    intro rows σ
    rfl

/-- A part that a command may not change is the same after it. -/
theorem get_after {c : Command} {part : Part} (h : part ∉ c.writes) (σ : Session) :
    part.get (after c.run σ) = part.get σ := by
  refine c.keeps ?_ σ
  intro other hother
  refine Part.hidden_get ?_
  rintro rfl
  exact h hother

end Command
end GridBuchi
