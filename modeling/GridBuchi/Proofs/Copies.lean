/-
# `GridBuchi.Proofs.Copies` — every proposition in a session has a history

A proposition does not stay in the slot where it was made.  It is copied to
other slots, and with a transition into slots for transitions and into
automata, and what happens to the slot it came from afterwards does not reach
the copies.  So each copy has a history of its own, that of its origin as far
as it went when the copy was taken.

A `Ledger` keeps these histories.  It hears which commands were given and
whether they succeeded, and sees no proposition.  A command that fails is
entered too if it was to change a proposition: the proposition is then told
something that it does not follow.

After any commands, every proposition in a slot and every guard of every
transition, in a slot or in an automaton, is what its history in the ledger
comes to, and so is well formed.
-/
import GridBuchi.Proofs.Arming
import GridBuchi.Proofs.Atomicity
import Mathlib.Logic.Function.Basic

namespace GridBuchi

open SessionM

/-! ## The ledger -/

/-- The histories of the guards of a transition. -/
structure GuardHistories where
  positive : List (List PropositionCall)
  negative : List (List PropositionCall)

/-- The histories of the propositions in the slots, of the guards of the
transitions in the slots, and of the guards of each transition of the automata
in the slots.  What stands under a slot that was never filled means
nothing. -/
structure Ledger where
  propositions : String → List PropositionCall
  transitions : String → GuardHistories
  automata : String → List GuardHistories

/-- The ledger of a session in which nothing has happened yet. -/
def Ledger.blank : Ledger := ⟨fun _ => [], fun _ => ⟨[], []⟩, fun _ => []⟩

/-- The history of the proposition that a literal stands for. -/
def PropositionLiteral.history (L : Ledger) : PropositionLiteral → List PropositionCall
  | .slot name => L.propositions name
  | .truth => [.new]
  | .caption text => [.new, .disarm (some text)]
  | .compare test text => [.compare test text]
  | .code index n threshold text => [.ofCode index n threshold text]

/-- The histories of the guards of the transition that a literal stands
for. -/
def TransitionLiteral.histories (L : Ledger) : TransitionLiteral → GuardHistories
  | .slot name => L.transitions name
  | .unconditional _ _ => ⟨[[.new]], []⟩
  | .guarded _ _ positive negative =>
      ⟨positive.map (PropositionLiteral.history L), negative.map (PropositionLiteral.history L)⟩

namespace Ledger

/-- A proposition in a slot is told something. -/
def tell (L : Ledger) (name : String) (call : PropositionCall) : Ledger :=
  { L with propositions := Function.update L.propositions name (L.propositions name ++ [call]) }

/-- A transition is copied to a slot, if there is one. -/
def fetch (L : Ledger) (target : String) : Option GuardHistories → Ledger
  | none => L
  | some guards => { L with transitions := Function.update L.transitions target guards }

/-- The ledger after a command; `done` says whether it succeeded. -/
def note (L : Ledger) (c : Command) (done : Bool) : Ledger :=
  match c, done with
  | .proposition (.put l name), true =>
      { L with propositions := Function.update L.propositions name (l.history L) }
  | .proposition (.arm name test text), _ => L.tell name (.set test text)
  | .proposition (.disarm name caption), _ => L.tell name (.disarm caption)
  | .transition (.put l name), true =>
      { L with transitions := Function.update L.transitions name (l.histories L) }
  | .automaton (.create name), true =>
      { L with automata := Function.update L.automata name [] }
  | .automaton (.copy source name), true =>
      { L with automata := Function.update L.automata name (L.automata source) }
  | .automaton (.addTransition l name), true =>
      { L with automata := Function.update L.automata name (L.automata name ++ [l.histories L]) }
  | .automaton (.transition name index (some target)), true =>
      L.fetch target (L.automata name)[index]?
  | _, _ => L

/-- The ledger after a list of commands, from the answers they got. -/
def noteAll (L : Ledger) (commands : List Command)
    (answers : List (Except (Failure SessionError) Answer)) : Ledger :=
  (commands.zip answers).foldl (fun L e => L.note e.1 e.2.isOk) L

/-- The ledger of the session that a list of commands leads to. -/
def reached (commands : List Command) : Ledger :=
  blank.noteAll commands (Session.fresh.run commands).1

end Ledger

/-! ## What the ledger says of a session -/

section Holds

/-- The guards of the transition stand in the relation `R` to their
histories. -/
structure Transition.Guards (R : List PropositionCall → Proposition → Prop) (h : GuardHistories)
    (t : Transition) : Prop where
  positive : List.Forall₂ R h.positive t.positive
  negative : List.Forall₂ R h.negative t.negative

/-- Every value in the slots stands in the relation `R` to what is entered for
it. -/
def Slots.Entered {α β : Type} (R : β → α → Prop) (entry : String → β) (s : Slots α) : Prop :=
  ∀ name a, s.get? name = some a → R (entry name) a

/-- Every proposition that the session holds, in whatever place, stands in the
relation `R` to its history in the ledger. -/
structure Ledger.Holds (R : List PropositionCall → Proposition → Prop) (L : Ledger) (σ : Session) :
    Prop where
  propositions : σ.propositions.Entered R L.propositions
  transitions : σ.transitions.Entered (Transition.Guards R) L.transitions
  automata : σ.automata.Entered
    (fun hs A => List.Forall₂ (Transition.Guards R) hs A.transitions) L.automata

variable {R S : List PropositionCall → Proposition → Prop}

theorem Transition.Guards.imp (hRS : ∀ {calls p}, R calls p → S calls p) {h : GuardHistories}
    {t : Transition} (ht : t.Guards R h) : t.Guards S h :=
  ⟨ht.positive.imp fun _ _ => hRS, ht.negative.imp fun _ _ => hRS⟩

theorem Ledger.Holds.imp (hRS : ∀ {calls p}, R calls p → S calls p) {L : Ledger} {σ : Session}
    (h : L.Holds R σ) : L.Holds S σ where
  propositions name p hp := hRS (h.propositions name p hp)
  transitions name t ht := (h.transitions name t ht).imp hRS
  automata name A hA := (h.automata name A hA).imp fun _ _ => .imp hRS

section Entered

variable {α β : Type} {Q : β → α → Prop} {entry : String → β} {s : Slots α} {name : String}

/-- A new entry has to fit what the slot holds. -/
theorem Slots.Entered.update (h : s.Entered Q entry) {b : β}
    (hb : ∀ a, s.get? name = some a → Q b a) : s.Entered Q (Function.update entry name b) := by
  intro other a ha
  rw [Function.update_apply]
  split
  · next ho => exact hb a (ho ▸ ha)
  · exact h other a ha

/-- A slot is filled, and the entry is made. -/
theorem Slots.Entered.put (h : s.Entered Q entry) {a : α} {b : β} (hab : Q b a) :
    (s.put name a).Entered Q (Function.update entry name b) := by
  intro other a' ha
  rw [Slots.get?_put] at ha
  rw [Function.update_apply]
  split at ha
  · next ho =>
      cases ha
      rw [if_pos ho]
      exact hab
  · next ho =>
      rw [if_neg ho]
      exact h other a' ha

/-- A slot is filled with something that fits the entry that is there. -/
theorem Slots.Entered.put_same (h : s.Entered Q entry) {a : α} (ha : Q (entry name) a) :
    (s.put name a).Entered Q entry := by
  have hput : (s.put name a).Entered Q (Function.update entry name (entry name)) := h.put ha
  rwa [Function.update_eq_self] at hput

end Entered

end Holds

/-! ## One command -/

/-- The proposition is what its history comes to. -/
def Told (calls : List PropositionCall) (p : Proposition) : Prop := Proposition.told calls = some p

variable {σ : Session} {L : Ledger}

theorem PropositionLiteral.Denotes.told {l : PropositionLiteral} {p : Proposition}
    (hp : l.Denotes σ p) (h : L.Holds Told σ) : Told (l.history L) p := by
  cases l with
  | slot name => exact h.propositions name p hp
  | truth | caption text =>
      cases hp
      rfl
  | compare test text =>
      rw [Denotes, ← Proposition.compare_eq_ok_iff] at hp
      show (Proposition.compare test text).toOption.or none = some p
      rw [hp]
      rfl
  | code index n threshold text =>
      rw [Denotes, ← Proposition.ofCode_eq_ok_iff] at hp
      show (Proposition.ofCode index n threshold text).toOption.or none = some p
      rw [hp]
      rfl

theorem TransitionLiteral.Denotes.told {l : TransitionLiteral} {t : Transition}
    (ht : l.Denotes σ t) (h : L.Holds Told σ) : t.Guards Told (l.histories L) := by
  cases l with
  | slot name => exact h.transitions name t ht
  | unconditional source target =>
      cases ht
      exact ⟨.cons rfl .nil, .nil⟩
  | guarded source target positive negative =>
      obtain ⟨ps, ns, hps, hns, rfl⟩ := ht
      exact ⟨List.forall₂_map_left_iff.mpr (hps.imp fun _ _ hp => hp.told h),
        List.forall₂_map_left_iff.mpr (hns.imp fun _ _ hp => hp.told h)⟩

/-- Carrying out `m` keeps a ledger right in which it is entered as the
command `c`. -/
def Ledger.Follows (L : Ledger) (c : Command) (m : SessionM Answer) (σ : Session) : Prop :=
  (L.note c (answer m σ).isOk).Holds Told (after m σ)

/-- Reading first can only make the command fail. -/
theorem Ledger.Follows.read {α : Type} {m : SessionM α} {f : α → SessionM Answer} {c : Command}
    (hm : ReadOnly m) (hfails : ∀ e, answer m σ = .error e → (L.note c false).Holds Told σ)
    (hf : ∀ a, answer m σ = .ok a → L.Follows c (f a) σ) : L.Follows c (m >>= f) σ := by
  rw [Ledger.Follows, answer_bind, after_bind, hm σ]
  cases h : answer m σ with
  | ok a => exact hf a h
  | error e => exact hfails e h

/-- A command that may fill no slot with propositions in it is not entered. -/
theorem Ledger.Follows.of_writes {c : Command} (h : L.Holds Told σ)
    (hc : Part.propositions ∉ c.writes ∧ Part.transitions ∉ c.writes ∧ Part.automata ∉ c.writes)
    (hnote : ∀ done, L.note c done = L) : L.Follows c c.run σ := by
  have hp : (after c.run σ).propositions = σ.propositions := c.get_after hc.1 σ
  have ht : (after c.run σ).transitions = σ.transitions := c.get_after hc.2.1 σ
  have hA : (after c.run σ).automata = σ.automata := c.get_after hc.2.2 σ
  rw [Ledger.Follows, hnote]
  exact ⟨hp ▸ h.propositions, ht ▸ h.transitions, hA ▸ h.automata⟩

/-! ### On propositions -/

/-- A proposition is told something that it does not follow. -/
theorem Ledger.Holds.tell (h : L.Holds Told σ) {name : String} {call : PropositionCall}
    (hcall : ∀ p, σ.propositions.get? name = some p →
      Proposition.afterCall (some p) call = some p) :
    (L.tell name call).Holds Told σ := by
  refine { h with propositions := h.propositions.update ?_ }
  intro p hp
  rw [Told, Proposition.told_snoc, h.propositions name p hp]
  exact hcall p hp

/-- A proposition is told something that makes another of it. -/
theorem Ledger.Holds.tell_put (h : L.Holds Told σ) {name : String} {call : PropositionCall}
    {p q : Proposition} (hp : σ.propositions.get? name = some p)
    (hcall : Proposition.afterCall (some p) call = some q) :
    (L.tell name call).Holds Told { σ with propositions := σ.propositions.put name q } := by
  refine { h with propositions := h.propositions.put ?_ }
  rw [Told, Proposition.told_snoc, h.propositions name p hp]
  exact hcall

/-- Where there is no proposition nothing has to be followed. -/
theorem Ledger.Holds.tell_nobody (h : L.Holds Told σ) {name : String} (call : PropositionCall)
    {e : Failure SessionError} (he : answer (slot Session.propositions name) σ = .error e) :
    (L.tell name call).Holds Told σ := by
  refine h.tell ?_
  intro p hp
  rw [← answer_slot_eq_ok, he] at hp
  cases hp

theorem PropositionCommand.follows (h : L.Holds Told σ) (c : PropositionCommand) :
    L.Follows (.proposition c) (Command.proposition c).run σ := by
  cases c with
  | put l name =>
      refine .read l.reads.readOnly (fun _ _ => h) ?_
      intro p hp
      rw [PropositionLiteral.answer_value_eq_ok] at hp
      exact { h with propositions := h.propositions.put (hp.told h) }
  | arm name test text =>
      refine .read (readOnly_slot _ name) (fun _ he => h.tell_nobody _ he) ?_
      intro p hp
      rw [answer_slot_eq_ok] at hp
      refine .read (Reads.attempt _ _).readOnly ?_ ?_
      · intro e he
        rw [answer_attempt, mapError_eq_error_iff] at he
        obtain ⟨b, hb, -⟩ := he
        refine h.tell ?_
        intro p _
        rw [Proposition.afterCall, hb]
        rfl
      · intro q hq
        rw [answer_attempt, mapError_eq_ok_iff] at hq
        refine h.tell_put hp ?_
        rw [Proposition.afterCall, hq]
        rfl
  | disarm name caption =>
      refine .read (readOnly_slot _ name) (fun _ he => h.tell_nobody _ he) ?_
      intro p hp
      rw [answer_slot_eq_ok] at hp
      refine h.tell_put hp ?_
      cases caption <;> rfl
  | inspect _ | evalTrusted _ _ _ | evalChecked _ _ _ | same _ _ | countDistinct _ =>
      exact .of_writes h (by simp [Command.writes]) fun _ => rfl

/-! ### On transitions and automata -/

theorem TransitionCommand.follows (h : L.Holds Told σ) (c : TransitionCommand) :
    L.Follows (.transition c) (Command.transition c).run σ := by
  cases c with
  | put l name =>
      refine .read l.reads.readOnly (fun _ _ => h) ?_
      intro t ht
      rw [TransitionLiteral.answer_value_eq_ok] at ht
      exact { h with transitions := h.transitions.put (ht.told h) }
  | inspect _ | enabledTrusted _ _ _ | enabledChecked _ _ _ | same _ _ =>
      exact .of_writes h (by simp [Command.writes]) fun _ => rfl

/-- Resolving a transition leaves its guards as they are. -/
theorem Transition.Guards.resolve {hs : GuardHistories} {t u : Transition} {A : Automaton}
    (h : t.Guards Told hs) (hu : A.resolveTransition t = .ok u) : u.Guards Told hs := by
  obtain ⟨i, j, rfl⟩ := Automaton.exists_ids_of_resolveTransition hu
  exact ⟨h.positive, h.negative⟩

/-- The automaton in a slot is built on, but not by adding a transition. -/
theorem Ledger.Holds.build (h : L.Holds Told σ) {name : String} {A B : Automaton}
    (hA : σ.automata.get? name = some A) {call : BuilderCall} (hB : A.after call = B)
    (hcall : ∀ t, call ≠ .addTransition t) :
    L.Holds Told { σ with automata := σ.automata.put name B } := by
  subst hB
  refine { h with automata := h.automata.put_same ?_ }
  rw [(Automaton.change_after A call).transitions hcall]
  exact h.automata name A hA

/-- The automaton in a slot is built on by a call that it may refuse. -/
theorem Ledger.Follows.request (h : L.Holds Told σ) {name : String} {c : Command}
    {x : Automaton → Except AutomatonError (LocationId × Automaton)} (call : BuilderCall)
    (hx : ∀ A : Automaton, A.after call = A.afterAnswer (x A)) (hcall : ∀ t, call ≠ .addTransition t)
    (hnote : ∀ done, L.note c done = L) :
    L.Follows c (slot Session.automata name >>= fun A => attempt ofAutomaton (x A) >>= fun y =>
      putAutomaton name y.2 >>= fun _ => pure (.id y.1)) σ := by
  have hrefused : ∀ done, (L.note c done).Holds Told σ := by
    intro done
    rw [hnote]
    exact h
  refine .read (readOnly_slot _ name) (fun _ _ => hrefused false) ?_
  intro A hA
  rw [answer_slot_eq_ok] at hA
  refine .read (Reads.attempt _ _).readOnly (fun _ _ => hrefused false) ?_
  rintro ⟨id, B⟩ hy
  rw [answer_attempt, mapError_eq_ok_iff] at hy
  have hB : A.after call = B := by rw [hx, hy, Automaton.afterAnswer]
  rw [Ledger.Follows, hnote]
  exact h.build hA hB hcall

/-- A transition is looked up under an index: it is there if its guards are
entered there. -/
theorem Ledger.Holds.lookup (h : L.Holds Told σ) {name : String} {A : Automaton}
    (hA : σ.automata.get? name = some A) (index : Nat) :
    (A.transitions[index]? = none ∧ (L.automata name)[index]? = none) ∨
      ∃ t hs, A.transitions[index]? = some t ∧ (L.automata name)[index]? = some hs ∧
        t.Guards Told hs := by
  have hguards := h.automata name A hA
  cases ht : A.transitions[index]? with
  | none =>
      rw [List.getElem?_eq_none_iff, ← hguards.length_eq] at ht
      exact Or.inl ⟨rfl, List.getElem?_eq_none_iff.mpr ht⟩
  | some t =>
      obtain ⟨hs, hentry, hR⟩ := forall₂_getElem? hguards ht
      exact Or.inr ⟨t, hs, rfl, hentry, hR⟩

theorem AutomatonCommand.follows (h : L.Holds Told σ) (c : AutomatonCommand) :
    L.Follows (.automaton c) (Command.automaton c).run σ := by
  cases c with
  | create name => exact { h with automata := h.automata.put .nil }
  | copy source name =>
      refine .read (readOnly_slot _ source) (fun _ _ => h) ?_
      intro A hA
      rw [answer_slot_eq_ok] at hA
      exact { h with automata := h.automata.put (h.automata source A hA) }
  | addLocation name location =>
      refine .read (readOnly_slot _ name) (fun _ _ => h) ?_
      intro A hA
      rw [answer_slot_eq_ok] at hA
      have hB : A.after (.addLocation location) = (A.addLocation location).2 := rfl
      exact h.build hA hB (by simp)
  | setInitial name location =>
      exact .request h (.setInitial location) (fun _ => rfl) (by simp) fun _ => rfl
  | setAccepting name location =>
      exact .request h (.setAccepting location) (fun _ => rfl) (by simp) fun _ => rfl
  | addTransition l name =>
      refine .read l.reads.readOnly (fun _ _ => h) ?_
      intro t ht
      rw [TransitionLiteral.answer_value_eq_ok] at ht
      refine .read (readOnly_slot _ name) (fun _ _ => h) ?_
      intro A hA
      rw [answer_slot_eq_ok] at hA
      rw [Ledger.Follows, answer_bind, after_bind, answer_record, after_record,
        Automaton.result_addTransition]
      cases hu : A.resolveTransition t with
      | error e => exact ⟨h.propositions, h.transitions, h.automata⟩
      | ok u =>
          refine ⟨h.propositions, h.transitions, h.automata.put ?_⟩
          exact List.rel_append (h.automata name A hA) (.cons ((ht.told h).resolve hu) .nil)
  | transition name index into =>
      refine .read (readOnly_slot _ name) (fun _ _ => by cases into <;> exact h) ?_
      intro A hA
      rw [answer_slot_eq_ok] at hA
      rcases h.lookup hA index with ⟨ht, hentry⟩ | ⟨t, hs, ht, hentry, hguards⟩
      · rw [ht]
        cases into with
        | none => exact h
        | some target =>
            show (L.fetch target (L.automata name)[index]?).Holds Told σ
            rw [hentry]
            exact h
      · rw [ht]
        cases into with
        | none => exact h
        | some target =>
            show (L.fetch target (L.automata name)[index]?).Holds Told
              { σ with transitions := σ.transitions.put target t }
            rw [hentry]
            exact { h with transitions := h.transitions.put hguards }
  | inspect _ | id? _ _ | nameOf _ _ | isAccepting _ _ | successors _ _ _ _ _
  | synchronize _ _ _ _ _ | explore _ _ _ _ =>
      exact .of_writes h (by simp [Command.writes]) fun _ => rfl

/-! ## Many commands -/

theorem Command.follows (h : L.Holds Told σ) (c : Command) : L.Follows c c.run σ := by
  cases c with
  | proposition c => exact c.follows h
  | transition c => exact c.follows h
  | automaton c => exact c.follows h
  | comparison c | state c | registry c =>
      exact .of_writes h (by cases c <;> simp [writes]) fun _ => rfl
  | showConfig _ | takeEvents => exact .of_writes h (by simp [writes]) fun _ => rfl

theorem Ledger.Holds.run (h : L.Holds Told σ) (commands : List Command) :
    (L.noteAll commands (σ.run commands).1).Holds Told (σ.run commands).2 := by
  induction commands generalizing σ L with
  | nil => exact h
  | cons c rest ih =>
      have hstep : (L.note c (σ.step c).1.isOk).Holds Told (σ.step c).2 := by
        rw [Session.step_eq]
        exact c.follows h
      exact ih hstep

theorem Ledger.holds_reached (commands : List Command) :
    (Ledger.reached commands).Holds Told (Session.reached commands) := by
  refine Ledger.Holds.run ⟨?_, ?_, ?_⟩ commands
  · intro name p hp
    cases hp
  · intro name t ht
    cases ht
  · intro name A hA
    cases hA

/-- Whatever a proposition is told, and wherever it is copied to, it stays well
formed: idle, or armed with what the last arming that succeeded gave it.
Making one from a code succeeds where the code and the text allow it, and
reports whatever is wrong otherwise. -/
theorem propositions_stay_well_formed :
    (∀ calls p, Proposition.told calls = some p → p.LeftBy calls) ∧
      (∀ commands, (Ledger.reached commands).Holds (fun calls p => p.LeftBy calls)
        (Session.reached commands)) ∧
      ∀ index n threshold text, Proposition.MadeFromCode index n threshold text :=
  ⟨fun _ _ => Proposition.leftBy_of_told,
    fun commands => (Ledger.holds_reached commands).imp Proposition.leftBy_of_told,
    Proposition.madeFromCode⟩

/-- A proposition is copied into a transition while it is armed, and into an
automaton while it is not.  Then it is armed anew, the second time in vain. -/
def armedTwice : List Command :=
  [.proposition (.put (.compare ⟨0, .less, 3⟩ "x < 3") "p"),
    .transition (.put (.guarded "wait" "wait" [.slot "p"] []) "t"),
    .proposition (.disarm "p" (some "always")),
    .automaton (.create "A"), .automaton (.addLocation "A" "wait"),
    .automaton (.addTransition (.guarded "wait" "wait" [.slot "p"] [.code 1 116 5 "y >= 5"]) "A"),
    .proposition (.arm "p" ⟨0, .greater, 4⟩ "x > 4"), .proposition (.arm "p" ⟨0, .less, 9⟩ "")]

theorem armedTwice_stays_well_formed :
    (∃ p, (Session.reached armedTwice).propositions.get? "p" = some p ∧ p.display = "x > 4" ∧
      p.LeftBy [.compare ⟨0, .less, 3⟩ "x < 3", .disarm (some "always"),
        .set ⟨0, .greater, 4⟩ "x > 4", .set ⟨0, .less, 9⟩ ""]) ∧
    (∃ t, (Session.reached armedTwice).transitions.get? "t" = some t ∧
      t.Guards (fun calls p => p.LeftBy calls) ⟨[[.compare ⟨0, .less, 3⟩ "x < 3"]], []⟩) ∧
    (∃ A, (Session.reached armedTwice).automata.get? "A" = some A ∧
      List.Forall₂ (Transition.Guards fun calls p => p.LeftBy calls)
        [⟨[[.compare ⟨0, .less, 3⟩ "x < 3", .disarm (some "always")]],
          [[.ofCode 1 116 5 "y >= 5"]]⟩]
        A.transitions) ∧
    (Proposition.trivial "always").LeftBy [.new, .set ⟨0, .less, 3⟩ "", .disarm (some "always")] ∧
    Proposition.ofCode 0 114 3 "" = .error (.reported (.unsupportedOperator 114)) := by
  obtain ⟨hcalls, hreached, hcode⟩ := propositions_stay_well_formed
  have hheld := hreached armedTwice
  refine ⟨⟨_, rfl, rfl, hheld.propositions "p" _ rfl⟩, ⟨_, rfl, hheld.transitions "t" _ rfl⟩,
    ⟨_, rfl, hheld.automata "A" _ rfl⟩, hcalls _ _ rfl, (hcode 0 114 3 "").unsupported ?_⟩
  intro c
  cases c <;> decide

end GridBuchi
