/-
# `GridBuchi.Session.Run` — carrying commands out

Every command reads what it needs, asks the library, and fills slots last.
`Session.step` is one command, `Session.run` a list of them: a command that
fails does not stop the ones after it.
-/
import GridBuchi.Session.Command
import GridBuchi.Automaton.Exploration
import GridBuchi.Automaton.Text

namespace GridBuchi

open SessionM

/-- The number of different values in a list. -/
def distinct {α : Type} [DecidableEq α] (as : List α) : Nat := as.eraseDups.length

def ComparisonCommand.run : ComparisonCommand → SessionM Answer
  | .ofCode code => return .comparison (← attempt ofProposition (Comparison.ofCode code))
  | .describe c => return .described c
  | .holds c value threshold => return .flag (c.holds value threshold)

def PropositionCommand.run : PropositionCommand → SessionM Answer
  | .put p name => do
      let p ← p.value
      putProposition name p
      return .proposition p
  | .inspect p => return .proposition (← p.value)
  | .arm name test text => do
      let _ ← slot Session.propositions name
      let p ← attempt .breach (Proposition.compare test text)
      putProposition name p
      return .proposition p
  | .disarm name caption => do
      let _ ← slot Session.propositions name
      let p := match caption with
        | none => Proposition.truth
        | some text => .trivial text
      putProposition name p
      return .proposition p
  | .evalTrusted p s c => do
      let p ← p.value
      let s ← s.value
      return .flag (← attempt .breach (p.evalTrusted (s.through c)))
  | .evalChecked p s c => do
      let p ← p.value
      let s ← s.value
      return .flag (← attempt ofProposition (p.evalChecked (s.through c)))
  | .same p q => do
      let p ← p.value
      let q ← q.value
      return .flag (p = q)
  | .countDistinct ps => return .count (distinct (← PropositionLiteral.values ps))

def StateCommand.run : StateCommand → SessionM Answer
  | .put s name => do
      let s ← s.value
      putState name s
      return .state s
  | .inspect s => return .state (← s.value)
  | .get s id => do
      let s ← s.value
      return .word (← attempt .breach (Components.read s id.toNat))
  | .set name id value => do
      let s ← slot Session.states name
      let s ← attempt .breach (s.set id.toNat value)
      putState name s
      return .state s
  | .place name location => do
      let s ← slot Session.states name
      match s.place? location with
      | none => return .placed false s
      | some moved =>
          putState name moved
          return .placed true moved
  | .read s index c => do
      let s ← s.value
      return .word (← attempt .breach (Components.read (s.through c) index))
  | .read? s index c => do
      let s ← s.value
      return .ofOption .word (Components.read? (s.through c) index)
  | .count s c => do
      let s ← s.value
      return .count (Components.count (s.through c))
  | .display s registry => do
      let s ← s.value
      let r ← slot Session.registries registry
      return .text (s.display r)
  | .same s t => do
      let s ← s.value
      let t ← t.value
      return .flag (s = t)
  | .countDistinct ss => return .count (distinct (← StateLiteral.values ss))

def RegistryCommand.run : RegistryCommand → SessionM Answer
  | .create name species => do
      let r := Registry.ofNames species
      putRegistry name r
      return .registry r
  | .copy source name => do
      let r ← slot Session.registries source
      putRegistry name r
      return .registry r
  | .register name species => do
      let r ← slot Session.registries name
      let (id, r) := r.register species
      putRegistry name r
      return .id id
  | .id? name species => do
      let r ← slot Session.registries name
      return .ofOption .id (r.id? species)
  | .name? name id => do
      let r ← slot Session.registries name
      return .ofOption .text (r.name? id)
  | .inspect name => return .registry (← slot Session.registries name)

def TransitionCommand.run : TransitionCommand → SessionM Answer
  | .put t name => do
      let t ← t.value
      putTransition name t
      return .transition t
  | .inspect t => return .transition (← t.value)
  | .enabledTrusted t s c => do
      let t ← t.value
      let s ← s.value
      return .flag (← attempt .breach (t.enabledTrusted (s.through c)))
  | .enabledChecked t s c => do
      let t ← t.value
      let s ← s.value
      return .flag (← attempt ofProposition (t.enabledChecked (s.through c)))
  | .same t u => do
      let t ← t.value
      let u ← u.value
      return .flag (t = u)

/-- Fills the slots `into` followed by a number, from number `i` on. -/
def putStates (into : String) : Nat → List State → SessionM Unit
  | _, [] => return ()
  | i, s :: rest => do
      putState (into ++ i.repr) s
      putStates into (i + 1) rest

def AutomatonCommand.run : AutomatonCommand → SessionM Answer
  | .create name => do
      putAutomaton name Automaton.empty
      return .nothing
  | .copy source name => do
      let A ← slot Session.automata source
      putAutomaton name A
      return .nothing
  | .inspect name => return .automaton (← slot Session.automata name)
  | .addLocation name location => do
      let A ← slot Session.automata name
      let (id, A) := A.addLocation location
      putAutomaton name A
      return .id id
  | .id? name location => do
      let A ← slot Session.automata name
      return .ofOption .id (A.id? location)
  | .nameOf name id => do
      let A ← slot Session.automata name
      return .text (← attempt ofAutomaton (A.nameOf id))
  | .setInitial name location => do
      let A ← slot Session.automata name
      let (id, A) ← attempt ofAutomaton (A.setInitial location)
      putAutomaton name A
      return .id id
  | .setAccepting name location => do
      let A ← slot Session.automata name
      let (id, A) ← attempt ofAutomaton (A.setAccepting location)
      putAutomaton name A
      return .id id
  | .isAccepting name id => do
      let A ← slot Session.automata name
      return .flag (← attempt ofAutomaton (A.isAccepting id))
  | .addTransition t name => do
      let t ← t.value
      let A ← slot Session.automata name
      let (index, A) ← record ofAutomaton (A.addTransition t)
      putAutomaton name A
      return .count index
  | .transition name index into => do
      let A ← slot Session.automata name
      match A.transitions[index]?, into with
      | none, _ => return .nothing
      | some t, none => return .transition t
      | some t, some target =>
          putTransition target t
          return .transition t
  | .successors s name id cfg c => do
      let s ← s.value
      let A ← slot Session.automata name
      return .ids (← attempt (Failure.map .automaton) (A.successors cfg id (s.through c)))
  | .synchronize s candidate name cfg into => do
      let s ← s.value
      let candidate ← candidate.value
      let A ← slot Session.automata name
      let found ← record (Failure.map .automaton) (A.synchronize cfg s candidate)
      match into with
      | none => return .states found
      | some target =>
          putStates target 0 found
          return .states found
  | .explore s candidates name cfg => do
      let s ← s.value
      let candidates ← StateLiteral.values candidates
      let A ← slot Session.automata name
      return .rows (← record (Failure.map .automaton) (A.explore cfg [s] candidates))

def Command.run : Command → SessionM Answer
  | .comparison c => c.run
  | .proposition c => c.run
  | .state c => c.run
  | .registry c => c.run
  | .transition c => c.run
  | .automaton c => c.run
  | .showConfig cfg => return .config cfg
  | .takeEvents => do
      let σ ← get
      set { σ with log := [] }
      return .events σ.log

namespace Session

/-- Carries out one command: its answer or failure, and the session after
it. -/
def step (σ : Session) (c : Command) : Except (Failure SessionError) Answer × Session :=
  match c.run σ with
  | .ok a σ' => (.ok a, σ')
  | .error e σ' => (.error e, σ')

/-- Carries out a list of commands, one after the other. -/
def run (σ : Session) : List Command → List (Except (Failure SessionError) Answer) × Session
  | [] => ([], σ)
  | c :: rest =>
      let (answer, σ) := σ.step c
      let (answers, σ) := run σ rest
      (answer :: answers, σ)

end Session
end GridBuchi
