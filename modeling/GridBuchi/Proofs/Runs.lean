/-
# `GridBuchi.Proofs.Runs` — exploration computes the runs of the automaton

A run of the automaton is a chain of its transitions, each starting where the
one before it ended and enabled in the row of species it is taken on.  No
frontier, no duplicate and no product state occurs in its definition.

Exploring along a list of candidates yields, at each step, exactly the
locations that such chains reach.  The rows a run is taken on are those the
system *leaves*: the start state's species for the first transition, then
those of every candidate but the last.  The last candidate only contributes
the species that the row shows.
-/
import GridBuchi.Proofs.Frontier
import GridBuchi.Proofs.History
import Mathlib.Data.List.Perm.Subperm

namespace GridBuchi.Automaton

/-- `A.Run source rows ts target`: from `source` the transitions `ts` lead to
`target`, each enabled in the row at its place. -/
inductive Run (A : Automaton) :
    LocationId → List (List Word) → List Transition → LocationId → Prop
  | nil (l : LocationId) : Run A l [] [] l
  | cons {t : Transition} {row : List Word} {rows : List (List Word)} {ts : List Transition}
      {target : LocationId} : t ∈ A.transitions → t.Enabled row → Run A t.targetId rows ts target →
      Run A t.sourceId (row :: rows) (t :: ts) target

variable {A : Automaton} {cfg : Config}

theorem run_nil_iff {source target : LocationId} :
    (∃ ts, A.Run source [] ts target) ↔ source = target := by
  constructor
  · rintro ⟨_, ⟨⟩⟩
    rfl
  · rintro rfl
    exact ⟨[], .nil source⟩

theorem run_cons_iff {source target : LocationId} {row : List Word} {rows : List (List Word)} :
    (∃ ts, A.Run source (row :: rows) ts target) ↔
      ∃ t ∈ A.transitions, t.sourceId = source ∧ t.Enabled row ∧
        ∃ ts, A.Run t.targetId rows ts target := by
  constructor
  · rintro ⟨_, h⟩
    cases h with
    | cons ht he hrest => exact ⟨_, ht, rfl, he, _, hrest⟩
  · rintro ⟨t, ht, rfl, he, ts, hrest⟩
    exact ⟨t :: ts, .cons ht he hrest⟩

/-! ## Frontiers hold the ends of runs -/

theorem length_frontiers {frontier candidates : List State} {fs : List (List State)}
    (h : A.frontiers cfg frontier candidates = .ok fs) : fs.length = candidates.length := by
  induction candidates generalizing frontier fs with
  | nil => cases h; rfl
  | cons candidate rest ih =>
      obtain ⟨next, others, -, hrest, rfl⟩ := frontiers_cons h
      rw [List.length_cons, List.length_cons, ih hrest]

/-- A frontier comes from advancing the one before it. -/
theorem advance_of_frontiers {frontier candidates : List State} {fs : List (List State)}
    (h : A.frontiers cfg frontier candidates = .ok fs) {k : Nat} {candidate : State}
    {f : List State} (hc : candidates[k]? = some candidate) (hf : fs[k]? = some f) :
    ∃ last, (A.advance cfg candidate [] last).result = .ok f := by
  induction candidates generalizing frontier fs k with
  | nil => cases hc
  | cons c rest ih =>
      obtain ⟨next, others, hnext, hrest, rfl⟩ := frontiers_cons h
      cases k with
      | zero =>
          cases hc
          cases hf
          exact ⟨frontier, hnext⟩
      | succ k => exact ih hrest hc hf

/-- Where all states of a frontier have the same species, so does every guard
that decides on the next one. -/
theorem mem_advance_of_species {candidate : State} {frontier next : List State}
    (h : (A.advance cfg candidate [] frontier).result = .ok next) {row : List Word}
    (hrow : ∀ s ∈ frontier, s.species = row) (q : State) :
    q ∈ next ↔ ∃ s ∈ frontier, ∃ t ∈ A.transitions, s.location? = some t.sourceId ∧
      t.Enabled row ∧ q = State.product candidate.species t.targetId := by
  rw [mem_advance h q]
  simp only [List.not_mem_nil, false_or]
  refine exists_congr fun s => and_congr_right ?_
  intro hs
  rw [hrow s hs]

/-- The induction is on the candidates, with the frontier general.  All its
states have the species `row`, since they were made from one candidate, and
on that row the first transition of every run is taken. -/
theorem mem_frontiers {frontier candidates : List State} {fs : List (List State)}
    (h : A.frontiers cfg frontier candidates = .ok fs) {row : List Word}
    (hrow : ∀ s ∈ frontier, s.species = row) {k : Nat} {candidate : State} {f : List State}
    (hc : candidates[k]? = some candidate) (hf : fs[k]? = some f) (q : State) :
    q ∈ f ↔ ∃ s ∈ frontier, ∃ source target ts, s.location? = some source ∧
      A.Run source (row :: (candidates.take k).map State.species) ts target ∧
        q = State.product candidate.species target := by
  induction candidates generalizing frontier fs row k with
  | nil => cases hc
  | cons c rest ih =>
      obtain ⟨next, others, hnext, hrest, rfl⟩ := frontiers_cons h
      have hmem := mem_advance_of_species hnext hrow
      cases k with
      | zero =>
          cases hc
          cases hf
          rw [hmem]
          constructor
          · rintro ⟨s, hs, t, ht, hl, he, hq⟩
            exact ⟨s, hs, t.sourceId, t.targetId, [t], hl, .cons ht he (.nil _), hq⟩
          · rintro ⟨s, hs, source, target, ts, hl, hrun, hq⟩
            obtain ⟨t, ht, rfl, he, hend⟩ := run_cons_iff.mp ⟨ts, hrun⟩
            obtain rfl := run_nil_iff.mp hend
            exact ⟨s, hs, t, ht, hl, he, hq⟩
      | succ k =>
          have hrow' : ∀ s ∈ next, s.species = c.species := by
            intro s hs
            obtain ⟨-, -, t, -, -, -, rfl⟩ := (hmem s).mp hs
            exact State.species_product _ _
          rw [ih hrest hrow' hc hf]
          constructor
          · rintro ⟨s', hs', source, target, ts, hl', hrun, hq⟩
            obtain ⟨s, hs, t, ht, hl, he, rfl⟩ := (hmem s').mp hs'
            rw [State.location?_product] at hl'
            cases hl'
            exact ⟨s, hs, t.sourceId, target, t :: ts, hl, .cons ht he hrun, hq⟩
          · rintro ⟨s, hs, source, target, ts, hl, hrun, hq⟩
            obtain ⟨t, ht, rfl, he, ts', hrun'⟩ := run_cons_iff.mp ⟨ts, hrun⟩
            exact ⟨State.product c.species t.targetId, (hmem _).mpr ⟨s, hs, t, ht, hl, he, rfl⟩,
              t.targetId, target, ts', State.location?_product _ _, hrun', hq⟩

/-- A frontier has at most one state for each location. -/
theorem WellFormed.length_le_of_advance (hA : A.WellFormed) {candidate : State}
    {frontier next : List State} (h : (A.advance cfg candidate [] frontier).result = .ok next) :
    next.length ≤ A.locationCount := by
  have hsub : next ⊆ (List.range A.locationCount).map
      (fun i => State.product candidate.species (UInt32.ofNat i)) := by
    intro q hq
    obtain ⟨id, rfl, hlt⟩ := hA.location_of_advance h hq
    refine List.mem_map.mpr ⟨id.toNat, List.mem_range.mpr hlt, ?_⟩
    rw [UInt32.ofNat_toNat]
  have hle := (List.subperm_of_subset (nodup_advance List.nodup_nil h) hsub).length_le
  rwa [List.length_map, List.length_range] at hle

/-! ## Rows show runs -/

/-- What a row says about the runs from a start state: `before` are the
candidates of the steps before it, `candidate` is the one of its own step. -/
structure ShowsRuns (A : Automaton) (start : State) (before : List State) (candidate : State)
    (row : List (State × Bool)) : Prop where
  nodup : (row.map Prod.fst).Nodup
  length_le : row.length ≤ A.locationCount
  /-- The system's half of every state is the candidate's. -/
  species : ∀ shown ∈ row, shown.1.dim = candidate.dim ∧ shown.1.species = candidate.species
  /-- The mark shown is that of the location. -/
  accepting : ∀ shown ∈ row, ∃ l, shown.1.location? = some l ∧ A.isAccepting l = .ok shown.2
  /-- The locations are the ends of the runs on the rows that were left. -/
  runs : ∀ l, (∃ shown ∈ row, shown.1.location? = some l) ↔
    ∃ source ts, start.location? = some source ∧
      A.Run source ((start :: before).map State.species) ts l

theorem RowOf.fst {frontier : List State} {row : List (State × Bool)} (h : A.RowOf frontier row) :
    row.map Prod.fst = frontier := by
  induction h with
  | nil => rfl
  | cons hs _ ih => rw [List.map_cons, hs.1, ih]

theorem RowOf.accepts {frontier : List State} {row : List (State × Bool)} (h : A.RowOf frontier row) :
    ∀ shown ∈ row, A.accepts shown.1 = .ok shown.2 := by
  induction h with
  | nil => intro shown hs; cases hs
  | cons hs _ ih => exact List.forall_mem_cons.mpr ⟨hs.1 ▸ hs.2, ih⟩

theorem RowOf.mem_iff {frontier : List State} {row : List (State × Bool)} (h : A.RowOf frontier row)
    {q : State} : (∃ shown ∈ row, shown.1 = q) ↔ q ∈ frontier := by
  rw [← h.fst, List.mem_map]

theorem WellFormed.showsRuns (hA : A.WellFormed) {start : State} {candidates : List State}
    {fs : List (List State)} (h : A.frontiers cfg [start] candidates = .ok fs) {k : Nat}
    {candidate : State} {f : List State} {row : List (State × Bool)}
    (hc : candidates[k]? = some candidate) (hf : fs[k]? = some f) (hrow : A.RowOf f row) :
    A.ShowsRuns start (candidates.take k) candidate row := by
  obtain ⟨last, hlast⟩ := advance_of_frontiers h hc hf
  have hproduct : ∀ shown ∈ row, ∃ l, shown.1 = State.product candidate.species l := by
    intro shown hs
    obtain ⟨l, hl, -⟩ := hA.location_of_advance hlast (hrow.mem_iff.mp ⟨shown, hs, rfl⟩)
    exact ⟨l, hl⟩
  have hstart : ∀ s ∈ [start], s.species = start.species := by
    intro s hs
    rw [List.mem_singleton.mp hs]
  have hruns := mem_frontiers h hstart hc hf
  refine ⟨?_, ?_, ?_, ?_, fun l => ⟨?_, ?_⟩⟩
  · rw [hrow.fst]
    exact nodup_advance List.nodup_nil hlast
  · rw [← hrow.length_eq]
    exact hA.length_le_of_advance hlast
  · intro shown hs
    obtain ⟨l, hl⟩ := hproduct shown hs
    rw [hl, State.dim_product, State.length_species, State.species_product]
    exact ⟨rfl, rfl⟩
  · intro shown hs
    obtain ⟨l, hl⟩ := hproduct shown hs
    have hl' : shown.1.location? = some l := hl ▸ State.location?_product _ _
    exact ⟨l, hl', accepts_of_location? hl' ▸ hrow.accepts shown hs⟩
  · rintro ⟨shown, hs, hl⟩
    obtain ⟨s, hs', source, target, ts, hsource, hrun, hq⟩ :=
      (hruns shown.1).mp (hrow.mem_iff.mp ⟨shown, hs, rfl⟩)
    rw [hq, State.location?_product] at hl
    cases hl
    exact ⟨source, ts, List.mem_singleton.mp hs' ▸ hsource, hrun⟩
  · rintro ⟨source, ts, hsource, hrun⟩
    obtain ⟨shown, hs, hq⟩ := hrow.mem_iff.mpr ((hruns (State.product candidate.species l)).mpr
      ⟨start, List.mem_singleton_self _, source, l, ts, hsource, hrun, rfl⟩)
    exact ⟨shown, hs, hq ▸ State.location?_product _ _⟩

/-- Whenever the product steps along a path succeed, exploration yields a row
for each of them, and each row shows the runs of the automaton: no location
too many, none too few. -/
theorem explore_computes_runs (calls : List BuilderCall) (cfg : Config) (start : State)
    (candidates : List State) (fs : List (List State))
    (h : (build calls).frontiers cfg [start] candidates = .ok fs) :
    ∃ rows, ((build calls).explore cfg [start] candidates).result = .ok rows ∧
      List.Forall₂ (build calls).RowOf fs rows ∧ rows.length = candidates.length ∧
      ∀ k candidate row, candidates[k]? = some candidate → rows[k]? = some row →
        (build calls).ShowsRuns start (candidates.take k) candidate row := by
  have hA := wellFormed_build calls
  obtain ⟨rows, hrows, hof⟩ := hA.exists_explore h
  refine ⟨rows, hrows, hof, ?_, ?_⟩
  · rw [← hof.length_eq, length_frontiers h]
  · intro k candidate row hc hr
    obtain ⟨f, hf, hrow⟩ := forall₂_getElem? hof hr
    exact hA.showsRuns h hc hf hrow

/-- On a path that leaves the states 5 and 4, both locations are reached at
each step, the accepting one at the second step by two runs. -/
theorem waitForThree_computes_runs :
    (build waitForThree).frontiers {} [.product [5] 0] [.product [4] 0, .product [0] 0] =
        .ok [[.product [4] 0, .product [4] 1], [.product [0] 0, .product [0] 1]] ∧
      ∃ rows,
        ((build waitForThree).explore {} [.product [5] 0]
          [.product [4] 0, .product [0] 0]).result = .ok rows ∧
        List.Forall₂ (build waitForThree).RowOf
          [[.product [4] 0, .product [4] 1], [.product [0] 0, .product [0] 1]] rows ∧
        rows.length = 2 ∧
        ∀ k candidate row, [State.product [4] 0, .product [0] 0][k]? = some candidate →
          rows[k]? = some row →
          (build waitForThree).ShowsRuns (.product [5] 0)
            ([State.product [4] 0, .product [0] 0].take k) candidate row := by
  have h : (build waitForThree).frontiers {} [.product [5] 0] [.product [4] 0, .product [0] 0] =
      .ok [[.product [4] 0, .product [4] 1], [.product [0] 0, .product [0] 1]] := rfl
  exact ⟨h, explore_computes_runs waitForThree {} _ _ _ h⟩

end GridBuchi.Automaton
