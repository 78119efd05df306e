/-
# `GridBuchi.Proofs.Product` — what one product step yields

One equation for each part of a product step, so that nothing further on has
to open it.  The successors of a location are the targets of the enabled
transitions that leave it, in order.  A candidate taken over at a location is
the product state of its species and that location: what its slot held before
is gone.  The results of a step are therefore the successors, each put behind
the candidate's species, and the candidate's slot is missed only if there is
a successor to put there.
-/
import GridBuchi.Proofs.Walk

namespace GridBuchi

/-! ## Product states by their two views -/

namespace State

theorem species_product (row : List Word) (l : LocationId) : (product row l).species = row := by
  simp [species, product]

theorem location?_product (row : List Word) (l : LocationId) :
    (product row l).location? = some l := by
  simp [location?, product]

theorem dim_product (row : List Word) (l : LocationId) : (product row l).dim = row.length := rfl

theorem isSome_location? (s : State) : s.location?.isSome ↔ s.dim < s.words.length := by
  simp [location?]

/-- Moving a state that has a slot gives the product state of its species
and the new location; without a slot there is nothing to move. -/
theorem place?_eq (s : State) (l : LocationId) :
    s.place? l = if s.location?.isSome then some (product s.species l) else none := by
  by_cases h : s.dim < s.words.length
  · rw [if_pos (s.isSome_location?.mpr h), place?, dif_pos h]
    refine congrArg some (eq_of_views ?_ ?_)
    · rw [species_product, species, species, List.take_set_of_le (Nat.le_refl _)]
    · simp [location?, product, h]
  · have hs : ¬s.location?.isSome := by
      intro hs
      exact h (s.isSome_location?.mp hs)
    rw [if_neg hs, place?, dif_neg h]

end State

/-! ## Results of sequences, without their logs -/

theorem Logged.result_bind {ε α β : Type} (x : Logged ε α) (f : α → Logged ε β) :
    (x >>= f).result = x.result >>= fun a => (f a).result := by
  cases h : x.result with
  | error e => rw [Logged.bind_of_error h]; rfl
  | ok a => rw [Logged.bind_of_ok h]; rfl

theorem Logged.result_bind_of_ok {ε α β : Type} {x : Logged ε α} {a : α} (h : x.result = .ok a)
    (f : α → Logged ε β) : (x >>= f).result = (f a).result := by
  rw [Logged.bind_of_ok h]

/-! ## Successors -/

namespace Automaton

variable {α : Type} [Components α] {A : Automaton} {cfg : Config}

theorem mem_successors {id : LocationId} {a : α} {ls : List LocationId}
    (h : A.successors cfg id a = .ok ls) (l : LocationId) :
    l ∈ ls ↔ ∃ t ∈ A.transitions, t.sourceId = id ∧ t.Enabled a ∧ t.targetId = l := by
  rw [successors] at h
  split at h
  · cases h
  · obtain ⟨-, rfl⟩ := enabledTargets_eq_ok_iff.mp h
    simp [leaving, and_assoc, and_left_comm]

/-! ## One step -/

/-- What the log gets to see of one result. -/
def traced (cfg : Config) (source target : LocationId) (next : State) : List Event :=
  if cfg.trace then [.productStep source target next.text] else []

/-- With a slot, the first target is logged and taken over, then the rest. -/
theorem pairWith_cons {c : State} (hc : c.location?.isSome) (source l : LocationId)
    (rest : List LocationId) :
    pairWith cfg source c (l :: rest) =
      (⟨traced cfg source l (State.product c.species l), .ok ()⟩ : Logged _ Unit) >>= fun _ =>
        pairWith cfg source c rest >>= fun others =>
          pure (State.product c.species l :: others) := by
  rw [pairWith, State.place?_eq, if_pos hc, traced]
  dsimp only
  split <;> rfl

/-- Without one, the first target reports that. -/
theorem pairWith_cons_of_plain {c : State} (hc : c.location? = none) (source l : LocationId)
    (rest : List LocationId) :
    pairWith cfg source c (l :: rest) = Logged.silent (.error (.reported .missingLocation)) := by
  rw [pairWith, State.place?_eq, hc]
  rfl

/-- Either there is a slot for every target, and each target is logged, or the
first target reports that there is none. -/
theorem pairWith_eq (source : LocationId) (c : State) (ls : List LocationId) :
    pairWith cfg source c ls =
      if ls = [] ∨ c.location?.isSome then
        ⟨ls.flatMap (fun l => traced cfg source l (State.product c.species l)),
          .ok (ls.map (State.product c.species))⟩
      else ⟨[], .error (.reported .missingLocation)⟩ := by
  by_cases hc : c.location?.isSome
  · rw [if_pos (Or.inr hc)]
    induction ls with
    | nil => rfl
    | cons l rest ih =>
        rw [pairWith_cons hc, ih, Logged.bind_of_ok rfl, Logged.bind_of_ok rfl]
        simp [pure, Logged.silent]
  · have hnone : c.location? = none := by simpa using hc
    cases ls with
    | nil => rfl
    | cons l rest =>
        rw [pairWith_cons_of_plain hnone, if_neg (by simp [hnone])]
        rfl

theorem result_pairWith (source : LocationId) (c : State) (ls : List LocationId) :
    (pairWith cfg source c ls).result =
      if ls = [] ∨ c.location?.isSome then .ok (ls.map (State.product c.species))
      else .error (.reported .missingLocation) := by
  rw [pairWith_eq]
  split <;> rfl

theorem result_synchronize {s : State} {source : LocationId} (h : s.location? = some source)
    (c : State) :
    (A.synchronize cfg s c).result = A.successors cfg source s >>= fun ls =>
      if ls = [] ∨ c.location?.isSome then .ok (ls.map (State.product c.species))
      else .error (.reported .missingLocation) := by
  simp only [synchronize, h, Logged.result_bind, result_pairWith]
  rfl

/-- The four ways a product step can go: there is no location to step from,
the successors fail, there is a successor and no slot for it, or the
candidate is delivered at each successor. -/
theorem synchronize_cases (A : Automaton) (cfg : Config) (s c : State) :
    (s.location? = none ∧ A.synchronize cfg s c = ⟨[], .error (.reported .missingLocation)⟩) ∨
    (∃ source f, s.location? = some source ∧ A.successors cfg source s = .error f ∧
      A.synchronize cfg s c = ⟨[], .error f⟩) ∨
    (∃ source ls, s.location? = some source ∧ A.successors cfg source s = .ok ls ∧
      ¬(ls = [] ∨ c.location?.isSome) ∧
      A.synchronize cfg s c = ⟨[], .error (.reported .missingLocation)⟩) ∨
    ∃ source ls, s.location? = some source ∧ A.successors cfg source s = .ok ls ∧
      (ls = [] ∨ c.location?.isSome) ∧
      A.synchronize cfg s c =
        ⟨ls.flatMap (fun l => traced cfg source l (State.product c.species l)),
          .ok (ls.map (State.product c.species))⟩ := by
  cases hs : s.location? with
  | none =>
      refine Or.inl ⟨rfl, ?_⟩
      simp only [synchronize, hs]
      rfl
  | some source =>
      have hstep : A.synchronize cfg s c =
          Logged.silent (A.successors cfg source s) >>= pairWith cfg source c := by
        simp only [synchronize, hs]
      cases hl : A.successors cfg source s with
      | error f =>
          rw [hl] at hstep
          exact Or.inr (Or.inl ⟨source, f, rfl, hl, hstep⟩)
      | ok ls =>
          rw [hl, Logged.bind_of_ok rfl, pairWith_eq] at hstep
          by_cases hslot : ls = [] ∨ c.location?.isSome
          · rw [if_pos hslot] at hstep
            exact Or.inr (Or.inr (Or.inr ⟨source, ls, rfl, hl, hslot, hstep⟩))
          · rw [if_neg hslot] at hstep
            exact Or.inr (Or.inr (Or.inl ⟨source, ls, rfl, hl, hslot, hstep⟩))

/-- A step that succeeds has delivered. -/
theorem synchronize_of_ok {s c : State} {found : List State}
    (h : (A.synchronize cfg s c).result = .ok found) :
    ∃ source ls, s.location? = some source ∧ A.successors cfg source s = .ok ls ∧
      (ls = [] ∨ c.location?.isSome) ∧ found = ls.map (State.product c.species) ∧
      (A.synchronize cfg s c).events =
        ls.flatMap (fun l => traced cfg source l (State.product c.species l)) := by
  rcases A.synchronize_cases cfg s c with
    ⟨-, hstep⟩ | ⟨_, f, -, -, hstep⟩ | ⟨_, _, -, -, -, hstep⟩ | ⟨source, ls, hs, hl, hslot, hstep⟩
  · rw [hstep] at h
    cases h
  · rw [hstep] at h
    cases h
  · rw [hstep] at h
    cases h
  · rw [hstep] at h ⊢
    cases h
    exact ⟨source, ls, hs, hl, hslot, rfl, rfl⟩

/-- The results of a step that succeeds: the candidate, once at the target of
each transition that leaves the source and is enabled there. -/
theorem mem_synchronize {s c : State} {found : List State}
    (h : (A.synchronize cfg s c).result = .ok found) :
    ∃ source, s.location? = some source ∧ ∀ q, q ∈ found ↔
      ∃ t ∈ A.transitions, t.sourceId = source ∧ t.Enabled s.species ∧
        q = State.product c.species t.targetId := by
  obtain ⟨source, ls, hs, hl, -, rfl, -⟩ := synchronize_of_ok h
  refine ⟨source, hs, ?_⟩
  intro q
  simp only [List.mem_map, mem_successors hl]
  constructor
  · rintro ⟨l, ⟨t, ht, hid, he, rfl⟩, rfl⟩
    exact ⟨t, ht, hid, he, rfl⟩
  · rintro ⟨t, ht, hid, he, rfl⟩
    exact ⟨t.targetId, ⟨t, ht, hid, he, rfl⟩, rfl⟩

end Automaton
end GridBuchi
