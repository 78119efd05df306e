/-
# `GridBuchi.Proofs.TrustedLayout` — exploration over a trusted layout never fails

Callers are entitled to leave the checks off when they have compiled the
guards against the states they explore.  What they have to see to is little:
every armed guard asks for one of the first `d` components, and the states
they hand in have `d` species and, for a candidate, a slot for a location.

Then no product step can fail, at any depth and by either evaluator.  Guards
stay inside the states because all of these have `d` species; locations stay
inside the automaton because the targets of its transitions were resolved in
it; and the slot of a candidate is handed on to every state made from it.
-/
import GridBuchi.Proofs.Attempts
import GridBuchi.Proofs.FirstGuard
import GridBuchi.Proofs.History

namespace GridBuchi

/-! ## Guards that stay inside -/

/-- If it is armed, the proposition asks for one of the first `d`
components. -/
def Proposition.Within (d : Nat) (p : Proposition) : Prop := ∀ t ∈ p.test?, t.index < d

/-- All guards, positive and negative, ask for the first `d` components
only. -/
def Transition.Within (d : Nat) (t : Transition) : Prop :=
  ∀ p ∈ t.positive ++ t.negative, p.Within d

theorem Transition.mem_of_mem_guards {t : Transition} {g : Proposition × Bool} (h : g ∈ t.guards) :
    g.1 ∈ t.positive ++ t.negative := by
  rw [guards, List.mem_append, List.mem_map, List.mem_map] at h
  rcases h with ⟨p, hp, rfl⟩ | ⟨p, hp, rfl⟩
  · exact List.mem_append_left _ hp
  · exact List.mem_append_right _ hp

theorem Proposition.Within.not_outside {α : Type} [Components α] {a : α} {d i : Nat}
    {p : Proposition} (h : p.Within d) (ha : d ≤ Components.count a) : ¬p.Outside a i := by
  cases p with
  | trivial _ => exact id
  | armed t _ _ =>
      rintro ⟨rfl, hle⟩
      have hlt : t.index < d := h t rfl
      omega

theorem Transition.Within.not_stopsOutside {α : Type} [Components α] {a : α} {d : Nat}
    {t : Transition} (h : t.Within d) (ha : d ≤ Components.count a) (i : Nat) :
    ¬t.StopsOutside a i := by
  intro hstop
  obtain ⟨g, hg, hout⟩ := hstop.exists_mem
  exact (h g.1 (mem_of_mem_guards hg)).not_outside ha hout

namespace Automaton

variable {A : Automaton} {cfg : Config} {d : Nat}

theorem exists_successors (cfg : Config) (hguards : ∀ t ∈ A.transitions, t.Within d) {α : Type}
    [Components α] {a : α} (ha : d ≤ Components.count a) {id : LocationId}
    (hid : id.toNat < A.locationCount) :
    ∃ ls, A.successors cfg id a = .ok ls := by
  cases h : A.successors cfg id a with
  | ok ls => exact ⟨ls, rfl⟩
  | error f =>
      rcases successors_eq_error_iff.mp h with ⟨hle, -⟩ | ⟨-, i, hstop, -⟩
      · omega
      · obtain ⟨t, ht, hout⟩ := hstop.exists_mem
        exact absurd hout ((hguards t (List.mem_of_mem_filter ht)).not_stopsOutside ha i)

/-! ## One product step -/

/-- A product state over `d` species, at a location of the automaton. -/
structure IsProductState (A : Automaton) (d : Nat) (s : State) : Prop where
  dim : s.dim = d
  location : ∃ id, s.location? = some id ∧ id.toNat < A.locationCount

/-- A location of the automaton has a name and a mark. -/
theorem IsProductState.exists_shown {s : State} (h : A.IsProductState d s) :
    ∃ id mark name, s.location? = some id ∧ A.isAccepting id = .ok mark ∧
      A.nameOf id = .ok name := by
  obtain ⟨id, hid, hlt⟩ := h.location
  obtain ⟨name, hname⟩ := exists_nameOf hlt
  refine ⟨id, A.locations[id.toNat].accepting, name, hid, ?_, hname⟩
  rw [isAccepting, location_of_lt hlt]
  rfl

/-- A candidate taken over at a location is a product state. -/
theorem isProductState_product {c : State} {id : LocationId} (hdim : c.dim = d)
    (hid : id.toNat < A.locationCount) : A.IsProductState d (State.product c.species id) where
  dim := by rw [State.dim_product, c.length_species, hdim]
  location := ⟨id, State.location?_product _ _, hid⟩

theorem WellFormed.exists_synchronize (hA : A.WellFormed)
    (hguards : ∀ t ∈ A.transitions, t.Within d) {s c : State} (hs : A.IsProductState d s)
    (hdim : c.dim = d) (hslot : c.location?.isSome) :
    ∃ found, (A.synchronize cfg s c).result = .ok found ∧ ∀ q ∈ found, A.IsProductState d q := by
  obtain ⟨source, hsource, hlt⟩ := hs.location
  have hcount : d ≤ Components.count s := Nat.le_of_eq hs.dim.symm
  obtain ⟨ls, hls⟩ := exists_successors cfg hguards hcount hlt
  have hfound : (A.synchronize cfg s c).result = .ok (ls.map (State.product c.species)) := by
    rw [result_synchronize hsource, hls]
    exact if_pos (Or.inr hslot)
  refine ⟨_, hfound, ?_⟩
  intro q hq
  obtain ⟨_, -, hmem⟩ := mem_synchronize hfound
  obtain ⟨t, ht, -, -, rfl⟩ := (hmem q).mp hq
  exact isProductState_product hdim (lt_of_id? (hA.target t ht))

/-! ## Any number of product steps -/

/-- The induction is on the candidates, with the frontier general: that all
its states are product states over `d` species is what advancing keeps. -/
theorem WellFormed.mem_attempts (hA : A.WellFormed) {frontier candidates : List State}
    (hfrontier : ∀ s ∈ frontier, A.IsProductState d s) (hdim : ∀ c ∈ candidates, c.dim = d)
    {x : State × State} (hx : x ∈ A.attempts cfg frontier candidates) :
    A.IsProductState d x.1 ∧ x.2 ∈ candidates := by
  induction candidates generalizing frontier with
  | nil => cases hx
  | cons c rest ih =>
      obtain ⟨hc, hrest⟩ := List.forall_mem_cons.mp hdim
      have hfirst : x ∈ A.attemptsFrom cfg c frontier → A.IsProductState d x.1 ∧ x.2 ∈ c :: rest := by
        intro hx
        obtain ⟨hs, hxc⟩ := mem_attemptsFrom hx
        exact ⟨hfrontier x.1 hs, hxc ▸ List.mem_cons_self⟩
      rw [attempts] at hx
      split at hx
      · exact hfirst hx
      · next next hnext =>
          rcases List.mem_append.mp hx with hx | hx
          · exact hfirst hx
          · have hnextState : ∀ q ∈ next, A.IsProductState d q := by
              intro q hq
              obtain ⟨id, rfl, hlt⟩ := hA.location_of_advance hnext hq
              exact isProductState_product hc hlt
            obtain ⟨hs, hmem⟩ := ih hnextState hrest hx
            exact ⟨hs, List.mem_cons_of_mem c hmem⟩

/-- Where the guards stay inside `d` components, every product step of an
exploration over states with `d` species succeeds, whatever its depth and
however it is evaluated; every state it produces is again such a state, at a
location that has a name and a mark; and so the exploration succeeds. -/
theorem exploration_never_fails (calls : List BuilderCall) (d : Nat) (cfg : Config)
    (start : State) (candidates : List State)
    (hguards : ∀ t ∈ (build calls).transitions, t.Within d)
    (hstart : (build calls).IsProductState d start)
    (hcandidates : ∀ c ∈ candidates, c.dim = d ∧ c.location?.isSome) :
    (∀ x ∈ (build calls).attempts cfg [start] candidates,
      ∃ found, ((build calls).synchronize cfg x.1 x.2).result = .ok found ∧
        ∀ q ∈ found, (build calls).IsProductState d q ∧
          ∃ id mark name, q.location? = some id ∧ (build calls).isAccepting id = .ok mark ∧
            (build calls).nameOf id = .ok name) ∧
    ∃ rows, ((build calls).explore cfg [start] candidates).result = .ok rows := by
  have hA := wellFormed_build calls
  have hsteps : ∀ x ∈ (build calls).attempts cfg [start] candidates,
      ∃ found, ((build calls).synchronize cfg x.1 x.2).result = .ok found ∧
        ∀ q ∈ found, (build calls).IsProductState d q := by
    intro x hx
    obtain ⟨hs, hc⟩ := hA.mem_attempts (List.forall_mem_singleton.mpr hstart)
      (fun c hc => (hcandidates c hc).1) hx
    obtain ⟨hdim, hslot⟩ := hcandidates x.2 hc
    exact hA.exists_synchronize hguards hs hdim hslot
  constructor
  · intro x hx
    obtain ⟨found, hfound, hq⟩ := hsteps x hx
    exact ⟨found, hfound, fun q hmem => ⟨hq q hmem, (hq q hmem).exists_shown⟩⟩
  · rcases hA.explore_cases cfg [start] candidates with
      ⟨rows, hrows, -⟩ | ⟨f, -, done, last, hlast, -, hf⟩
    · exact ⟨rows, hrows⟩
    · obtain ⟨found, hfound, -⟩ := hsteps last (by rw [hlast]; simp)
      rw [hf] at hfound
      cases hfound

instance (d : Nat) (p : Proposition) : Decidable (p.Within d) :=
  inferInstanceAs (Decidable (∀ t ∈ p.test?, t.index < d))

instance (d : Nat) (t : Transition) : Decidable (t.Within d) :=
  inferInstanceAs (Decidable (∀ p ∈ t.positive ++ t.negative, p.Within d))

/-- All guards of `waitForThree` ask for the first species, so no step along
a path over one species can fail; the locations that the candidates come
with do not matter, not even one beyond the automaton. -/
theorem waitForThree_never_fails :
    (∀ t ∈ (build waitForThree).transitions, t.Within 1) ∧
      (build waitForThree).IsProductState 1 (.product [5] 0) ∧
      (∀ c ∈ [State.product [4] 0, .product [0] 9], c.dim = 1 ∧ c.location?.isSome) ∧
      (build waitForThree).attempts {} [.product [5] 0] [.product [4] 0, .product [0] 9] =
        [(.product [5] 0, .product [4] 0), (.product [4] 0, .product [0] 9),
          (.product [4] 1, .product [0] 9)] ∧
      ∃ rows, ((build waitForThree).explore {} [.product [5] 0]
        [.product [4] 0, .product [0] 9]).result = .ok rows := by
  have hguards : ∀ t ∈ (build waitForThree).transitions, t.Within 1 := by decide
  have hstart : (build waitForThree).IsProductState 1 (.product [5] 0) := ⟨rfl, 0, rfl, by decide⟩
  have hcandidates : ∀ c ∈ [State.product [4] 0, .product [0] 9], c.dim = 1 ∧ c.location?.isSome := by
    decide
  obtain ⟨-, hrows⟩ := exploration_never_fails waitForThree 1 {} (.product [5] 0) _ hguards hstart
    hcandidates
  exact ⟨hguards, hstart, hcandidates, rfl, hrows⟩

end Automaton
end GridBuchi
