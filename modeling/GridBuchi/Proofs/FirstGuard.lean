/-
# `GridBuchi.Proofs.FirstGuard` — the first guard that does not pass

The guards of a transition are looked at one after the other, positive before
negative, and the first that does not pass ends it.  To say which one that
is, the two lists are put into one: `guards` pairs each guard with the value
it needs, and the checking evaluator is a single walk along it.

An evaluation fails exactly when the first guard that does not pass asks for
a component outside the row, and the failure names that component.  So the
guards behind it do not matter, and neither do those before it once they have
passed.  The same holds one level up, for the transitions that leave a
location.
-/
import GridBuchi.Proofs.Builder
import GridBuchi.Proofs.Product

namespace GridBuchi

variable {α : Type} [Components α] {a : α}

/-! ## Where a single proposition fails -/

theorem Components.read_eq_error_iff {i : Nat} {b : Breach} :
    Components.read a i = .error b ↔
      Components.count a ≤ i ∧ b = .readOutside (Components.count a) i := by
  rcases Nat.lt_or_ge i (Components.count a) with hlt | hle
  · obtain ⟨w, hw⟩ := read_of_lt a hlt
    simp [hw, Nat.not_le.mpr hlt]
  · simp [read_of_le a hle, hle, eq_comm]

theorem Components.read?_eq_none_iff {i : Nat} :
    Components.read? a i = none ↔ Components.count a ≤ i := by
  rw [read?]
  split
  · next hlt =>
      obtain ⟨w, hw⟩ := read_of_lt a hlt
      simp [hw, Except.toOption, hlt]
  · next hle => exact iff_of_true rfl (Nat.le_of_not_lt hle)

/-- The proposition asks for component `i`, and `a` does not have it. -/
def Proposition.Outside (a : α) (i : Nat) : Proposition → Prop
  | .trivial _ => False
  | .armed t _ _ => t.index = i ∧ Components.count a ≤ i

theorem Proposition.evalChecked_eq_error_iff {p : Proposition} {e : PropositionError} :
    p.evalChecked a = .error e ↔
      ∃ i, p.Outside a i ∧ e = .indexOutOfBounds i (Components.count a) := by
  cases p with
  | trivial _ => simp [evalChecked, Outside]
  | armed t _ _ =>
      have hnone := Components.read?_eq_none_iff (a := a) (i := t.index)
      simp only [evalChecked, Outside]
      cases hr : Components.read? a t.index with
      | some w =>
          have hlt : ¬Components.count a ≤ t.index := by
            intro hle
            rw [hnone.mpr hle] at hr
            cases hr
          simp [hlt]
      | none => simp [hnone.mp hr, eq_comm]

/-- What the checking evaluator reports, the trusting one breaches. -/
theorem Alike.trusted_error_iff {β : Type} {R : β → β → Prop} {x : Except Breach β}
    {y : Except PropositionError β} (h : Alike SameRead R x y) {P : Nat → Prop} {len : Nat}
    (hy : ∀ {e}, y = .error e ↔ ∃ i, P i ∧ e = .indexOutOfBounds i len) {b : Breach} :
    x = .error b ↔ ∃ i, P i ∧ b = .readOutside len i := by
  constructor
  · rintro rfl
    generalize hz : y = z at h
    cases h with
    | error hread =>
        obtain ⟨i, hi, rfl⟩ := hy.mp hz
        cases hread
        exact ⟨i, hi, rfl⟩
  · rintro ⟨i, hi, rfl⟩
    exact (h.error_iff SameRead.biUnique (.outside _ _)).mpr (hy.mpr ⟨i, hi, rfl⟩)

theorem Proposition.evalTrusted_eq_error_iff {p : Proposition} {b : Breach} :
    p.evalTrusted a = .error b ↔
      ∃ i, p.Outside a i ∧ b = .readOutside (Components.count a) i :=
  (p.eval_alike a).trusted_error_iff evalChecked_eq_error_iff

namespace Transition

/-! ## The guards as one list -/

/-- The guards in the order in which they are looked at, each with the value
it needs to have. -/
def guards (t : Transition) : List (Proposition × Bool) :=
  t.positive.map (·, true) ++ t.negative.map (·, false)

/-- Whether all guards of a list pass, up to the first that does not. -/
def pass (a : α) : List (Proposition × Bool) → Except PropositionError Bool
  | [] => .ok true
  | (p, needed) :: rest =>
      match p.evalChecked a with
      | .error e => .error e
      | .ok value => if value = needed then pass a rest else .ok false

theorem pass_append (gs hs : List (Proposition × Bool)) :
    pass a (gs ++ hs) =
      match pass a gs with
      | .error e => .error e
      | .ok false => .ok false
      | .ok true => pass a hs := by
  induction gs with
  | nil => rfl
  | cons g rest ih =>
      obtain ⟨p, needed⟩ := g
      rw [List.cons_append, pass, pass, ih]
      cases p.evalChecked a with
      | error _ => rfl
      | ok value =>
          by_cases h : value = needed
          · simp only [if_pos h]
          · simp only [if_neg h]

theorem allHold_eq_pass (ps : List Proposition) : allHold a ps = pass a (ps.map (·, true)) := by
  induction ps with
  | nil => rfl
  | cons p rest ih =>
      rw [allHold, List.map_cons, pass, ih]
      cases p.evalChecked a with
      | error _ => rfl
      | ok value => cases value <;> rfl

theorem noneHold_eq_pass (ps : List Proposition) : noneHold a ps = pass a (ps.map (·, false)) := by
  induction ps with
  | nil => rfl
  | cons p rest ih =>
      rw [noneHold, List.map_cons, pass, ih]
      cases p.evalChecked a with
      | error _ => rfl
      | ok value => cases value <;> rfl

/-- The checking evaluator is one walk along the guards. -/
theorem enabledChecked_eq_pass (t : Transition) : t.enabledChecked a = pass a t.guards := by
  have hpass := pass_append (a := a) (t.positive.map (·, true)) (t.negative.map (·, false))
  rw [← allHold_eq_pass, ← noneHold_eq_pass] at hpass
  rw [guards, hpass]
  cases hp : allHold a t.positive with
  | error _ => simp only [enabledChecked, hp]
  | ok value => cases value <;> simp only [enabledChecked, hp]

/-! ## Where a transition fails -/

theorem pass_eq_error_iff {gs : List (Proposition × Bool)} {e : PropositionError} :
    pass a gs = .error e ↔
      StopsAt (fun g => g.1.HasValue a g.2) (fun g => g.1.evalChecked a = .error e) gs := by
  induction gs with
  | nil => simp [pass, not_stopsAt_nil]
  | cons g rest ih =>
      obtain ⟨p, needed⟩ := g
      rw [stopsAt_cons, ← Proposition.evalChecked_eq_ok_iff, ← ih, pass]
      cases p.evalChecked a with
      | error _ => simp
      | ok value => by_cases h : value = needed <;> simp [h]

/-- The first guard that does not pass asks for component `i`, and `a` does
not have it. -/
def StopsOutside (a : α) (t : Transition) (i : Nat) : Prop :=
  StopsAt (fun g => g.1.HasValue a g.2) (fun g => g.1.Outside a i) t.guards

theorem enabledChecked_eq_error_iff {t : Transition} {e : PropositionError} :
    t.enabledChecked a = .error e ↔
      ∃ i, t.StopsOutside a i ∧ e = .indexOutOfBounds i (Components.count a) := by
  simp only [enabledChecked_eq_pass, pass_eq_error_iff, Proposition.evalChecked_eq_error_iff,
    stopsAt_exists, stopsAt_and]
  exact Iff.rfl

theorem enabledTrusted_eq_error_iff {t : Transition} {b : Breach} :
    t.enabledTrusted a = .error b ↔
      ∃ i, t.StopsOutside a i ∧ b = .readOutside (Components.count a) i :=
  (t.enabled_alike a).trusted_error_iff enabledChecked_eq_error_iff

end Transition

/-- How a read outside a row of `len` components is turned down: reported by
the checking evaluator, a breach for the trusting one. -/
def Config.readFailure (cfg : Config) (len i : Nat) : Failure AutomatonError :=
  if cfg.checkIndices then .reported (.proposition (.indexOutOfBounds i len))
  else .breach (.readOutside len i)

theorem Config.readFailure_eq_breach_iff {cfg : Config} {len i : Nat} {b : Breach} :
    cfg.readFailure len i = .breach b ↔ cfg.checkIndices = false ∧ b = .readOutside len i := by
  rw [readFailure]
  split
  · next h => simp [h]
  · next h => simpa [h] using eq_comm

@[simp] theorem mapError_eq_ok_iff {ε ε' β : Type} {x : Except ε β} {g : ε → ε'} {a : β} :
    x.mapError g = .ok a ↔ x = .ok a := by
  cases x <;> simp [Except.mapError]

theorem mapError_eq_error_iff {ε ε' β : Type} {x : Except ε β} {g : ε → ε'} {f : ε'} :
    x.mapError g = .error f ↔ ∃ e, x = .error e ∧ f = g e := by
  cases x with
  | ok _ => simp [Except.mapError]
  | error e => simp [Except.mapError, eq_comm]

theorem Transition.enabled_eq_error_iff {cfg : Config} {t : Transition}
    {f : Failure AutomatonError} :
    t.enabled cfg a = .error f ↔
      ∃ i, t.StopsOutside a i ∧ f = cfg.readFailure (Components.count a) i := by
  rw [enabled]
  split
  · next hc =>
      simp only [Config.readFailure, if_pos hc, mapError_eq_error_iff, enabledChecked_eq_error_iff]
      constructor
      · rintro ⟨e, ⟨i, hi, rfl⟩, hf⟩
        exact ⟨i, hi, hf⟩
      · rintro ⟨i, hi, hf⟩
        exact ⟨_, ⟨i, hi, rfl⟩, hf⟩
  · next hc =>
      simp only [Config.readFailure, if_neg hc, mapError_eq_error_iff, enabledTrusted_eq_error_iff]
      constructor
      · rintro ⟨b, ⟨i, hi, rfl⟩, hf⟩
        exact ⟨i, hi, hf⟩
      · rintro ⟨i, hi, hf⟩
        exact ⟨_, ⟨i, hi, rfl⟩, hf⟩

theorem Transition.exists_enabled_eq_ok_iff {cfg : Config} {t : Transition} :
    (∃ enabled, t.enabled cfg a = .ok enabled) ↔ ∀ i, ¬t.StopsOutside a i := by
  constructor
  · rintro ⟨enabled, hok⟩ i hi
    rw [enabled_eq_error_iff.mpr ⟨i, hi, rfl⟩] at hok
    cases hok
  · intro hno
    cases ht : t.enabled cfg a with
    | ok enabled => exact ⟨enabled, rfl⟩
    | error f =>
        obtain ⟨i, hi, -⟩ := enabled_eq_error_iff.mp ht
        exact absurd hi (hno i)

/-! ## Where the successors of a location fail -/

namespace Automaton

variable {A : Automaton} {cfg : Config}

/-- The first transition of a list that cannot be evaluated stops at
component `i`. -/
def FirstStops (a : α) (i : Nat) : List Transition → Prop :=
  StopsAt (fun t => ∀ j, ¬t.StopsOutside a j) (fun t => t.StopsOutside a i)

theorem enabledTargets_firstStops_iff {ts : List Transition} {f : Failure AutomatonError} :
    enabledTargets cfg a ts = .error f ↔
      ∃ i, FirstStops a i ts ∧ f = cfg.readFailure (Components.count a) i := by
  simp only [enabledTargets_eq_error_iff, Transition.exists_enabled_eq_ok_iff,
    Transition.enabled_eq_error_iff, stopsAt_exists, stopsAt_and]
  exact Iff.rfl

/-- The first transition leaving a location that cannot be evaluated stops at
component `i`. -/
def StopsOutside (A : Automaton) (id : LocationId) (a : α) (i : Nat) : Prop :=
  FirstStops a i (A.leaving id)

/-- There are two ways for successors to fail: there is no such location, or
a guard of a transition that leaves it stops outside. -/
theorem successors_eq_error_iff {id : LocationId} {f : Failure AutomatonError} :
    A.successors cfg id a = .error f ↔
      A.locationCount ≤ id.toNat ∧ f = .reported (.invalidLocation id A.locationCount) ∨
      id.toNat < A.locationCount ∧
        ∃ i, A.StopsOutside id a i ∧ f = cfg.readFailure (Components.count a) i := by
  rw [successors]
  rcases Nat.lt_or_ge id.toNat A.locationCount with hlt | hle
  · rw [location_of_lt hlt]
    simp only [enabledTargets_firstStops_iff, StopsOutside, hlt, true_and]
    exact (or_iff_right (fun h => absurd hlt (Nat.not_lt.mpr h.1))).symm
  · have hnone : A.locations[id.toNat]? = none := List.getElem?_eq_none hle
    simp [location, hnone, hle, Nat.not_lt.mpr hle, eq_comm]

theorem successors_eq_breach_iff {id : LocationId} {b : Breach} :
    A.successors cfg id a = .error (.breach b) ↔
      cfg.checkIndices = false ∧ id.toNat < A.locationCount ∧
        ∃ i, A.StopsOutside id a i ∧ b = .readOutside (Components.count a) i := by
  rw [successors_eq_error_iff, or_iff_right (by simp)]
  simp only [eq_comm (a := Failure.breach b), Config.readFailure_eq_breach_iff]
  constructor
  · rintro ⟨hlt, i, hi, hc, hb⟩
    exact ⟨hc, hlt, i, hi, hb⟩
  · rintro ⟨hc, hlt, i, hi, hb⟩
    exact ⟨hlt, i, hi, hc, hb⟩

/-- A product step from `s` stops at component `i`: the first transition that
leaves the location of `s` and cannot be evaluated does. -/
def StepStopsOutside (A : Automaton) (s : State) (i : Nat) : Prop :=
  ∃ source, s.location? = some source ∧ source.toNat < A.locationCount ∧ A.StopsOutside source s i

/-- A product step breaches only where the successors of its source do. -/
theorem synchronize_eq_breach_iff {s c : State} {b : Breach} :
    (A.synchronize cfg s c).result = .error (.breach b) ↔
      cfg.checkIndices = false ∧ ∃ i, A.StepStopsOutside s i ∧ b = .readOutside s.dim i := by
  cases hs : s.location? with
  | none => simp [synchronize, StepStopsOutside, hs, Logged.silent]
  | some source =>
      have hstep : (A.synchronize cfg s c).result = .error (.breach b) ↔
          A.successors cfg source s = .error (.breach b) := by
        rw [result_synchronize hs]
        cases A.successors cfg source s with
        | error f => simp [bind, Except.bind]
        | ok ls =>
            show (if ls = [] ∨ c.location?.isSome then _ else _) = _ ↔ _
            split <;> simp
      simp only [hstep, successors_eq_breach_iff, StepStopsOutside, hs, Option.some.injEq,
        exists_eq_left', and_assoc, exists_and_left]
      exact Iff.rfl

end Automaton
end GridBuchi
