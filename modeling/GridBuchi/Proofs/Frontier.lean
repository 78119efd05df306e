/-
# `GridBuchi.Proofs.Frontier` — how a frontier advances

A frontier holds the product states reached so far, each once.  Advancing it
collects the results of one product step from each of its states; what comes
out depends on the states as a set, and no result is lost with the
duplicates.  The marks shown in a row are asked for afterwards, and in a
well-formed automaton asking never fails, so an exploration succeeds exactly
when its product steps do.
-/
import GridBuchi.Automaton.Exploration
import GridBuchi.Proofs.Builder
import GridBuchi.Proofs.Product

namespace GridBuchi.Automaton

variable {A : Automaton} {cfg : Config}

/-! ## Collecting -/

theorem mem_collect {seen found : List State} {q : State} :
    q ∈ collect seen found ↔ q ∈ seen ∨ q ∈ found := by
  induction found generalizing seen with
  | nil => simp [collect]
  | cons s rest ih =>
      rw [collect]
      split
      · next hs =>
          rw [ih, List.mem_cons]
          constructor
          · intro h
            exact h.imp_right Or.inr
          · rintro (h | rfl | h)
            · exact Or.inl h
            · exact Or.inl hs
            · exact Or.inr h
      · rw [ih, List.mem_append, List.mem_singleton, List.mem_cons, or_assoc]

theorem nodup_collect {seen : List State} (h : seen.Nodup) (found : List State) :
    (collect seen found).Nodup := by
  induction found generalizing seen with
  | nil => exact h
  | cons s rest ih =>
      rw [collect]
      split
      · exact ih h
      · next hs =>
          refine ih (List.nodup_append.mpr ⟨h, by simp, ?_⟩)
          intro a ha b hb he
          rw [List.mem_singleton.mp hb] at he
          exact hs (he ▸ ha)

/-! ## Advancing -/

/-- A frontier that advances has had a product step from each state. -/
theorem advance_cons {candidate s : State} {seen rest next : List State}
    (h : (A.advance cfg candidate seen (s :: rest)).result = .ok next) :
    ∃ found, (A.synchronize cfg s candidate).result = .ok found ∧
      (A.advance cfg candidate (collect seen found) rest).result = .ok next := by
  rw [advance, Logged.result_bind] at h
  cases hs : (A.synchronize cfg s candidate).result with
  | error e => rw [hs] at h; cases h
  | ok found => rw [hs] at h; exact ⟨found, rfl, h⟩

theorem nodup_advance {candidate : State} {seen frontier next : List State} (hn : seen.Nodup)
    (h : (A.advance cfg candidate seen frontier).result = .ok next) : next.Nodup := by
  induction frontier generalizing seen with
  | nil => cases h; exact hn
  | cons s rest ih =>
      obtain ⟨found, -, h⟩ := advance_cons h
      exact ih (nodup_collect hn found) h

/-- The next frontier: the candidate at every location that an enabled
transition leads to from a state of the frontier. -/
theorem mem_advance {candidate : State} {seen frontier next : List State}
    (h : (A.advance cfg candidate seen frontier).result = .ok next) (q : State) :
    q ∈ next ↔ q ∈ seen ∨ ∃ s ∈ frontier, ∃ t ∈ A.transitions,
      s.location? = some t.sourceId ∧ t.Enabled s.species ∧
        q = State.product candidate.species t.targetId := by
  induction frontier generalizing seen with
  | nil => cases h; simp
  | cons s rest ih =>
      obtain ⟨found, hs, h⟩ := advance_cons h
      obtain ⟨source, hl, hfound⟩ := mem_synchronize hs
      rw [ih h, mem_collect, hfound, or_assoc]
      refine or_congr_right ?_
      rw [List.exists_mem_cons_iff, hl]
      refine or_congr_left (exists_congr fun t => and_congr_right fun _ => and_congr_left fun _ => ?_)
      rw [Option.some.injEq]
      exact eq_comm

/-! ## Rows -/

/-- A row shows the states of its frontier in order, each with the mark of
its location. -/
def RowOf (A : Automaton) (frontier : List State) (row : List (State × Bool)) : Prop :=
  List.Forall₂ (fun s shown => shown.1 = s ∧ A.accepts s = .ok shown.2) frontier row

theorem row_eq_ok_iff {frontier : List State} {row : List (State × Bool)} :
    A.row frontier = .ok row ↔ A.RowOf frontier row := by
  induction frontier generalizing row with
  | nil =>
      rw [RowOf, List.forall₂_nil_left_iff]
      constructor
      · intro h
        cases h
        rfl
      · rintro rfl
        rfl
  | cons s rest ih =>
      rw [RowOf, List.forall₂_cons_left_iff, Automaton.row]
      constructor
      · intro h
        cases hs : A.accepts s with
        | error e => rw [hs] at h; cases h
        | ok mark =>
            cases hr : A.row rest with
            | error e => rw [hs, hr] at h; cases h
            | ok others =>
                rw [hs, hr] at h
                cases h
                exact ⟨(s, mark), others, ⟨rfl, rfl⟩, ih.mp hr, rfl⟩
      · rintro ⟨⟨s', mark⟩, others, ⟨rfl, hs⟩, hr, rfl⟩
        rw [hs, ih.mpr hr]
        rfl

theorem accepts_of_location? {s : State} {id : LocationId} (h : s.location? = some id) :
    A.accepts s = A.isAccepting id := by
  simp only [accepts, h]

theorem exists_row {frontier : List State}
    (h : ∀ s ∈ frontier, ∃ id, s.location? = some id ∧ id.toNat < A.locationCount) :
    ∃ row, A.row frontier = .ok row := by
  induction frontier with
  | nil => exact ⟨[], rfl⟩
  | cons s rest ih =>
      obtain ⟨id, hid, hlt⟩ := h s List.mem_cons_self
      have hrest : ∀ q ∈ rest, ∃ id, q.location? = some id ∧ id.toNat < A.locationCount := by
        intro q hq
        exact h q (List.mem_cons_of_mem s hq)
      obtain ⟨others, hr⟩ := ih hrest
      refine ⟨(s, A.locations[id.toNat].accepting) :: others, ?_⟩
      rw [Automaton.row, accepts_of_location? hid, isAccepting, location_of_lt hlt, hr]
      rfl

/-! ## Exploring -/

/-- The frontiers alone, without the marks and without the log. -/
def frontiers (A : Automaton) (cfg : Config) (frontier : List State) :
    List State → Except (Failure AutomatonError) (List (List State))
  | [] => .ok []
  | candidate :: rest =>
      match (A.advance cfg candidate [] frontier).result with
      | .error e => .error e
      | .ok next => (A.frontiers cfg next rest).map (next :: ·)

theorem frontiers_cons {candidate : State} {frontier rest : List State} {fs : List (List State)}
    (h : A.frontiers cfg frontier (candidate :: rest) = .ok fs) :
    ∃ next others, (A.advance cfg candidate [] frontier).result = .ok next ∧
      A.frontiers cfg next rest = .ok others ∧ fs = next :: others := by
  rw [frontiers] at h
  split at h
  · cases h
  · next next hnext =>
      cases hr : A.frontiers cfg next rest with
      | error e => rw [hr] at h; cases h
      | ok others =>
          rw [hr] at h
          cases h
          exact ⟨next, others, hnext, hr, rfl⟩

/-- Every state of an advanced frontier has a location of the automaton. -/
theorem WellFormed.location_of_advance (hA : A.WellFormed) {candidate : State}
    {frontier next : List State} (h : (A.advance cfg candidate [] frontier).result = .ok next)
    {q : State} (hq : q ∈ next) :
    ∃ id, q = State.product candidate.species id ∧ id.toNat < A.locationCount := by
  rcases (mem_advance h q).mp hq with hq | ⟨s, -, t, ht, -, -, hq⟩
  · cases hq
  · exact ⟨t.targetId, hq, lt_of_id? (hA.target t ht)⟩

/-- The marks of an advanced frontier can be shown. -/
theorem WellFormed.exists_row_of_advance (hA : A.WellFormed) {candidate : State}
    {frontier next : List State} (h : (A.advance cfg candidate [] frontier).result = .ok next) :
    ∃ row, A.row next = .ok row := by
  refine exists_row ?_
  intro q hq
  obtain ⟨id, rfl, hlt⟩ := hA.location_of_advance h hq
  exact ⟨id, State.location?_product _ _, hlt⟩

/-- Showing the marks adds no way to fail: an exploration has a row for each
frontier. -/
theorem WellFormed.exists_explore (hA : A.WellFormed) {frontier candidates : List State}
    {fs : List (List State)} (h : A.frontiers cfg frontier candidates = .ok fs) :
    ∃ rows, (A.explore cfg frontier candidates).result = .ok rows ∧
      List.Forall₂ A.RowOf fs rows := by
  induction candidates generalizing frontier fs with
  | nil => cases h; exact ⟨[], rfl, .nil⟩
  | cons candidate rest ih =>
      obtain ⟨next, others, hnext, hrest, rfl⟩ := frontiers_cons h
      obtain ⟨rows, hrows, hof⟩ := ih hrest
      obtain ⟨row, hrow⟩ := hA.exists_row_of_advance hnext
      refine ⟨row :: rows, ?_, .cons (row_eq_ok_iff.mp hrow) hof⟩
      have hmarks : (Logged.silent ((A.row next).mapError Failure.reported)).result = .ok row := by
        rw [hrow]; rfl
      rw [explore, Logged.result_bind_of_ok hnext, Logged.result_bind_of_ok hmarks,
        Logged.result_bind_of_ok hrows]
      rfl

end GridBuchi.Automaton
