/-
# `GridBuchi.Proofs.Attempts` — the product steps that an exploration takes

An exploration is nothing but product steps, one after the other: from each
state of a frontier in order, frontier by frontier, until one of them fails.
`attempts` lists them, the failing one last.  What an exploration does can
then be said step by step.  It succeeds if all of its product steps do, and
otherwise fails as the last of them did; and what it logs is what they log,
one behind the other, before any duplicate is dropped.

A product step that fails logs nothing: the one way to fail after the
successors are known is a candidate without a slot, and that shows at the
first target.  A failing exploration has therefore logged just what the
product steps before the failing one have.
-/
import GridBuchi.Proofs.Frontier

namespace GridBuchi.Automaton

variable {A : Automaton} {cfg : Config}

/-- The product steps taken from the states of a frontier, each with the
state it leaves and its candidate, up to and with the first that fails. -/
def attemptsFrom (A : Automaton) (cfg : Config) (candidate : State) :
    List State → List (State × State)
  | [] => []
  | s :: rest =>
      match (A.synchronize cfg s candidate).result with
      | .error _ => [(s, candidate)]
      | .ok _ => (s, candidate) :: A.attemptsFrom cfg candidate rest

/-- The product steps that an exploration takes, in order, up to and with the
first that fails. -/
def attempts (A : Automaton) (cfg : Config) (frontier : List State) :
    List State → List (State × State)
  | [] => []
  | candidate :: rest =>
      match (A.advance cfg candidate [] frontier).result with
      | .error _ => A.attemptsFrom cfg candidate frontier
      | .ok next => A.attemptsFrom cfg candidate frontier ++ A.attempts cfg next rest

/-- All of these product steps succeed. -/
def Succeed (A : Automaton) (cfg : Config) (steps : List (State × State)) : Prop :=
  ∀ x ∈ steps, ∃ found, (A.synchronize cfg x.1 x.2).result = .ok found

/-- The last of these product steps fails with `f`, those before it
succeed. -/
def FailLast (A : Automaton) (cfg : Config) (f : Failure AutomatonError)
    (steps : List (State × State)) : Prop :=
  ∃ done last, steps = done ++ [last] ∧ A.Succeed cfg done ∧
    (A.synchronize cfg last.1 last.2).result = .error f

/-- What these product steps log. -/
def stepEvents (A : Automaton) (cfg : Config) (steps : List (State × State)) : List Event :=
  steps.flatMap (fun x => (A.synchronize cfg x.1 x.2).events)

/-- A product step is taken from a state of the frontier, to the candidate. -/
theorem mem_attemptsFrom {candidate : State} {frontier : List State} {x : State × State}
    (h : x ∈ A.attemptsFrom cfg candidate frontier) : x.1 ∈ frontier ∧ x.2 = candidate := by
  induction frontier with
  | nil => cases h
  | cons s rest ih =>
      rw [attemptsFrom] at h
      split at h
      · rw [List.mem_singleton.mp h]
        exact ⟨List.mem_cons_self, rfl⟩
      · rcases List.mem_cons.mp h with rfl | h
        · exact ⟨List.mem_cons_self, rfl⟩
        · exact ⟨List.mem_cons_of_mem s (ih h).1, (ih h).2⟩

/-! ## Succeeding and failing -/

theorem Succeed.append {xs ys : List (State × State)} (hx : A.Succeed cfg xs)
    (hy : A.Succeed cfg ys) : A.Succeed cfg (xs ++ ys) :=
  List.forall_mem_append.mpr ⟨hx, hy⟩

theorem FailLast.append {f : Failure AutomatonError} {xs ys : List (State × State)}
    (hx : A.Succeed cfg xs) (hy : A.FailLast cfg f ys) : A.FailLast cfg f (xs ++ ys) := by
  obtain ⟨done, last, rfl, hdone, hlast⟩ := hy
  exact ⟨xs ++ done, last, (List.append_assoc ..).symm, hx.append hdone, hlast⟩

/-- Steps of which the last fails do not all succeed, and a step among them
that fails is the last. -/
theorem FailLast.eq_of_mem {f g : Failure AutomatonError} {steps : List (State × State)}
    (h : A.FailLast cfg f steps) {x : State × State} (hx : x ∈ steps)
    (hg : (A.synchronize cfg x.1 x.2).result = .error g) : f = g := by
  obtain ⟨done, last, rfl, hdone, hlast⟩ := h
  rcases List.mem_append.mp hx with hx | hx
  · obtain ⟨found, hok⟩ := hdone x hx
    rw [hg] at hok
    cases hok
  · rw [List.mem_singleton.mp hx, hlast] at hg
    exact Except.error.inj hg

/-- A frontier advances if all its product steps succeed, and otherwise fails
as the last of them. -/
theorem advance_cases (A : Automaton) (cfg : Config) (candidate : State) (seen frontier : List State) :
    (∃ next, (A.advance cfg candidate seen frontier).result = .ok next ∧
      A.Succeed cfg (A.attemptsFrom cfg candidate frontier)) ∨
    ∃ f, (A.advance cfg candidate seen frontier).result = .error f ∧
      A.FailLast cfg f (A.attemptsFrom cfg candidate frontier) := by
  induction frontier generalizing seen with
  | nil => exact Or.inl ⟨seen, rfl, by simp [Succeed, attemptsFrom]⟩
  | cons s rest ih =>
      rw [advance, attemptsFrom, Logged.result_bind]
      cases hs : (A.synchronize cfg s candidate).result with
      | error f => exact Or.inr ⟨f, rfl, [], (s, candidate), rfl, by simp [Succeed], hs⟩
      | ok found =>
          have hfirst : A.Succeed cfg [(s, candidate)] := List.forall_mem_singleton.mpr ⟨found, hs⟩
          rcases ih (collect seen found) with ⟨next, hnext, hrest⟩ | ⟨f, hf, hrest⟩
          · exact Or.inl ⟨next, hnext, hfirst.append hrest⟩
          · exact Or.inr ⟨f, hf, .append hfirst hrest⟩

/-- Once a frontier has advanced, an exploration goes on from the next one. -/
theorem WellFormed.explore_cons (hA : A.WellFormed) {c : State} {frontier next : List State}
    (h : (A.advance cfg c [] frontier).result = .ok next) (rest : List State) :
    ∃ row, A.explore cfg frontier (c :: rest) =
      ⟨(A.advance cfg c [] frontier).events ++ (A.explore cfg next rest).events,
        (A.explore cfg next rest).result.map (row :: ·)⟩ := by
  obtain ⟨row, hrow⟩ := hA.exists_row_of_advance h
  refine ⟨row, ?_⟩
  rw [explore, Logged.bind_of_ok h, hrow]
  generalize A.explore cfg next rest = later
  obtain ⟨events, result⟩ := later
  cases result <;>
    simp [Logged.bind_of_ok, Logged.bind_of_error, Logged.silent, pure, Except.mapError, Except.map]

/-- If a frontier cannot be advanced, that ends the exploration. -/
theorem explore_cons_of_error {c : State} {frontier : List State} {f : Failure AutomatonError}
    (h : (A.advance cfg c [] frontier).result = .error f) (rest : List State) :
    A.explore cfg frontier (c :: rest) = ⟨(A.advance cfg c [] frontier).events, .error f⟩ := by
  rw [explore, Logged.bind_of_error h]

/-- An exploration succeeds if all its product steps do, and otherwise fails
as the last of them: showing the marks adds no way to fail. -/
theorem WellFormed.explore_cases (hA : A.WellFormed) (cfg : Config)
    (frontier candidates : List State) :
    (∃ rows, (A.explore cfg frontier candidates).result = .ok rows ∧
      A.Succeed cfg (A.attempts cfg frontier candidates)) ∨
    ∃ f, (A.explore cfg frontier candidates).result = .error f ∧
      A.FailLast cfg f (A.attempts cfg frontier candidates) := by
  induction candidates generalizing frontier with
  | nil => exact Or.inl ⟨[], rfl, by simp [Succeed, attempts]⟩
  | cons c rest ih =>
      rw [attempts]
      rcases advance_cases A cfg c [] frontier with
        ⟨next, hnext, hfirst⟩ | ⟨f, hf, hfirst⟩
      · obtain ⟨row, hrow⟩ := hA.explore_cons hnext rest
        rw [hrow, hnext]
        rcases ih next with ⟨rows, hrows, hrest⟩ | ⟨f, hf, hrest⟩
        · exact Or.inl ⟨row :: rows, by rw [hrows]; rfl, hfirst.append hrest⟩
        · exact Or.inr ⟨f, by rw [hf]; rfl, .append hfirst hrest⟩
      · rw [explore_cons_of_error hf, hf]
        exact Or.inr ⟨f, rfl, hfirst⟩

/-- An exploration fails just as one of its product steps does. -/
theorem WellFormed.explore_eq_error_iff (hA : A.WellFormed) {frontier candidates : List State}
    {f : Failure AutomatonError} :
    (A.explore cfg frontier candidates).result = .error f ↔
      ∃ x ∈ A.attempts cfg frontier candidates, (A.synchronize cfg x.1 x.2).result = .error f := by
  rcases hA.explore_cases cfg frontier candidates with ⟨rows, hrows, hall⟩ | ⟨g, hg, hlast⟩
  · rw [hrows]
    refine iff_of_false nofun ?_
    rintro ⟨x, hx, hf⟩
    obtain ⟨found, hfound⟩ := hall x hx
    rw [hfound] at hf
    cases hf
  · rw [hg]
    constructor
    · rintro ⟨⟩
      obtain ⟨done, last, hsteps, -, hfails⟩ := hlast
      exact ⟨last, by simp [hsteps], hfails⟩
    · rintro ⟨x, hx, hf⟩
      rw [hlast.eq_of_mem hx hf]

/-! ## Logging -/

theorem events_advance (candidate : State) (seen frontier : List State) :
    (A.advance cfg candidate seen frontier).events =
      A.stepEvents cfg (A.attemptsFrom cfg candidate frontier) := by
  induction frontier generalizing seen with
  | nil => rfl
  | cons s rest ih =>
      rw [advance, attemptsFrom]
      cases hs : (A.synchronize cfg s candidate).result with
      | error f => simp [Logged.bind_of_error hs, stepEvents]
      | ok found => simp [Logged.bind_of_ok hs, stepEvents, ih]

/-- The log of an exploration is that of its product steps. -/
theorem WellFormed.events_explore (hA : A.WellFormed) (frontier candidates : List State) :
    (A.explore cfg frontier candidates).events =
      A.stepEvents cfg (A.attempts cfg frontier candidates) := by
  induction candidates generalizing frontier with
  | nil => rfl
  | cons c rest ih =>
      rw [attempts]
      cases hnext : (A.advance cfg c [] frontier).result with
      | error f => rw [explore_cons_of_error hnext, events_advance]
      | ok next =>
          obtain ⟨row, hrow⟩ := hA.explore_cons hnext rest
          rw [hrow, events_advance, ih]
          simp [stepEvents]

/-- A product step that fails logs nothing. -/
theorem events_synchronize_of_error {s c : State} {f : Failure AutomatonError}
    (h : (A.synchronize cfg s c).result = .error f) : (A.synchronize cfg s c).events = [] := by
  rcases A.synchronize_cases cfg s c with
    ⟨-, hstep⟩ | ⟨_, _, -, -, hstep⟩ | ⟨_, _, -, -, -, hstep⟩ | ⟨_, _, -, -, -, hstep⟩
  · rw [hstep]
  · rw [hstep]
  · rw [hstep]
  · rw [hstep] at h
    cases h

/-- What is logged when the last step fails is what the others have logged. -/
theorem stepEvents_of_failed {done : List (State × State)} {last : State × State}
    {f : Failure AutomatonError} (h : (A.synchronize cfg last.1 last.2).result = .error f) :
    A.stepEvents cfg (done ++ [last]) = A.stepEvents cfg done := by
  simp [stepEvents, events_synchronize_of_error h]

end GridBuchi.Automaton
