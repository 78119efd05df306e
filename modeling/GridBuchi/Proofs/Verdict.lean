/-
# `GridBuchi.Proofs.Verdict` — the first guard that does not pass decides

A guard says one of three things of a row.  It *passes* if it has the value
it needs there, it is *outside* if it asks for a component that the row does
not have, and otherwise it *blocks*.  Along the guards of a transition,
positive before negative, the first that does not pass decides: a blocking
one turns the transition off, one that is outside is reported.

What stands behind the deciding guard has no say, so a guard that is outside
is never reported from behind one that blocks.  Where no guard is outside
there is nothing to report, and the order has no say either: the outcome is
the conjunction of the positive guards and of the negations of the negative
ones, and a conjunction does not care how often and in which order its
members are listed.  With a guard that is outside, both are false: it is
reported in front of a blocking guard and passed over in silence behind it.
-/
import GridBuchi.Proofs.FirstGuard

namespace GridBuchi

variable {α : Type} [Components α] {a : α}

/-! ## A proposition has a value or is outside, and not both -/

namespace Proposition

theorem hasValue_or_outside (a : α) (p : Proposition) :
    (∃ b, p.HasValue a b) ∨ ∃ i, p.Outside a i := by
  cases h : p.evalChecked a with
  | ok b => exact Or.inl ⟨b, evalChecked_eq_ok_iff.mp h⟩
  | error e =>
      obtain ⟨i, hi, -⟩ := evalChecked_eq_error_iff.mp h
      exact Or.inr ⟨i, hi⟩

theorem HasValue.not_outside {p : Proposition} {b : Bool} (h : p.HasValue a b) (i : Nat) :
    ¬p.Outside a i := by
  intro hi
  have hok := evalChecked_eq_ok_iff.mpr h
  rw [evalChecked_eq_error_iff.mpr ⟨i, hi, rfl⟩] at hok
  cases hok

/-- A proposition has one value. -/
theorem HasValue.iff_eq {p : Proposition} {b c : Bool} (h : p.HasValue a b) :
    p.HasValue a c ↔ b = c := by
  rw [← evalChecked_eq_ok_iff, evalChecked_eq_ok_iff.mpr h, Except.ok.injEq]

end Proposition

namespace Transition

/-! ## What a guard says -/

/-- The guard has the value it needs. -/
def Passes (a : α) (g : Proposition × Bool) : Prop := g.1.HasValue a g.2

/-- The guard can be read, and does not pass. -/
def Blocks (a : α) (g : Proposition × Bool) : Prop := ¬Passes a g ∧ ∀ i, ¬g.1.Outside a i

theorem blocks_iff {g : Proposition × Bool} : Blocks a g ↔ g.1.HasValue a (!g.2) := by
  constructor
  · rintro ⟨hpass, hin⟩
    rcases g.1.hasValue_or_outside a with ⟨b, hb⟩ | ⟨i, hi⟩
    · have hne : b ≠ g.2 := by
        rintro rfl
        exact hpass hb
      rwa [← Bool.eq_not_of_ne hne]
    · exact absurd hi (hin i)
  · intro h
    refine ⟨?_, h.not_outside⟩
    intro hpass
    have hself : (!g.2) = g.2 := h.iff_eq.mp hpass
    simp at hself

/-- The outcome of a single guard: whether it passes, if it can be read. -/
def verdict (a : α) (g : Proposition × Bool) : Except PropositionError Bool :=
  (g.1.evalChecked a).map (· == g.2)

theorem verdict_eq_false_iff {g : Proposition × Bool} : verdict a g = .ok false ↔ Blocks a g := by
  rw [blocks_iff, ← Proposition.evalChecked_eq_ok_iff, verdict]
  cases g.1.evalChecked a with
  | error _ => simp [Except.map]
  | ok b => simp [Except.map, Bool.eq_not]

/-- Guards are walked by their verdicts. -/
theorem pass_cons (g : Proposition × Bool) (rest : List (Proposition × Bool)) :
    pass a (g :: rest) = verdict a g >>= fun passes => if passes then pass a rest else .ok false := by
  rw [pass, verdict]
  cases g.1.evalChecked a with
  | error _ => rfl
  | ok value => simp [Except.map, bind, Except.bind]

/-- Only the verdicts count, whatever gives them. -/
theorem pass_congr {gs hs : List (Proposition × Bool)}
    (h : List.Forall₂ (fun g k => verdict a g = verdict a k) gs hs) : pass a gs = pass a hs := by
  induction h with
  | nil => rfl
  | cons hgk _ ih => rw [pass_cons, pass_cons, hgk, ih]

/-! ## What the guards say together -/

theorem forall_mem_guards {t : Transition} {P : Proposition × Bool → Prop} :
    (∀ g ∈ t.guards, P g) ↔ (∀ p ∈ t.positive, P (p, true)) ∧ ∀ p ∈ t.negative, P (p, false) := by
  simp only [guards, List.forall_mem_append, List.forall_mem_map]

theorem enabled_iff_passes {t : Transition} : t.Enabled a ↔ ∀ g ∈ t.guards, Passes a g := by
  rw [forall_mem_guards]
  exact Iff.rfl

theorem pass_eq_false_iff {gs : List (Proposition × Bool)} :
    pass a gs = .ok false ↔ StopsAt (Passes a) (Blocks a) gs := by
  induction gs with
  | nil => simp [pass, not_stopsAt_nil]
  | cons g rest ih =>
      rw [stopsAt_cons, ← ih, ← verdict_eq_false_iff, Passes, ← Proposition.evalChecked_eq_ok_iff,
        pass_cons, verdict]
      cases g.1.evalChecked a with
      | error _ => simp [Except.map, bind, Except.bind]
      | ok value => by_cases h : value = g.2 <;> simp [Except.map, bind, Except.bind, h]

/-- Behind a guard that blocks, nothing is looked at. -/
theorem pass_eq_of_blocks {g : Proposition × Bool} (h : Blocks a g)
    (before after : List (Proposition × Bool)) :
    pass a (before ++ g :: after) = pass a (before ++ [g]) := by
  have hg : ∀ rest, pass a (g :: rest) = .ok false := by
    intro rest
    rw [pass_cons, verdict_eq_false_iff.mpr h]
    rfl
  rw [pass_append, pass_append, hg, hg]

/-- Where no guard is outside, either all pass or the first that does not
blocks. -/
theorem passes_or_stopsAt {gs : List (Proposition × Bool)}
    (h : ∀ g ∈ gs, ∀ i, ¬g.1.Outside a i) :
    (∀ g ∈ gs, Passes a g) ∨ StopsAt (Passes a) (Blocks a) gs := by
  refine forall_or_stopsAt ?_
  intro g hg
  by_cases hpass : Passes a g
  · exact Or.inl hpass
  · exact Or.inr ⟨hpass, h g hg⟩

/-- Without a guard that is outside in front of it, a guard that blocks turns
the transition off. -/
theorem enabledChecked_of_blocks {t : Transition} {g : Proposition × Bool}
    {before after : List (Proposition × Bool)} (ht : t.guards = before ++ g :: after)
    (h : ∀ k ∈ before, ∀ i, ¬k.1.Outside a i) (hg : Blocks a g) :
    t.enabledChecked a = .ok false := by
  rw [enabledChecked_eq_pass, pass_eq_false_iff, ht, stopsAt_append]
  rcases passes_or_stopsAt h with hall | hstop
  · exact Or.inr ⟨hall, stopsAt_cons.mpr (Or.inl hg)⟩
  · exact Or.inl hstop

/-- Where no guard is outside, the outcome says whether all of them pass. -/
theorem enabledChecked_of_inside {t : Transition} (h : ∀ g ∈ t.guards, ∀ i, ¬g.1.Outside a i) :
    ∃ b, t.enabledChecked a = .ok b ∧ (b = true ↔ ∀ g ∈ t.guards, Passes a g) := by
  rcases passes_or_stopsAt h with hall | hstop
  · refine ⟨true, enabledChecked_eq_true_iff.mpr (enabled_iff_passes.mpr hall), ?_⟩
    exact iff_of_true rfl hall
  · refine ⟨false, ?_, iff_of_false nofun (hstop.not_forall fun _ hg => hg.1)⟩
    rw [enabledChecked_eq_pass, pass_eq_false_iff.mpr hstop]

/-- The value that each guard of a transition has, if all of them can be
read. -/
theorem exists_values {t : Transition} (h : ∀ g ∈ t.guards, ∀ i, ¬g.1.Outside a i) :
    ∃ value : Proposition → Bool, ∀ p ∈ t.positive ++ t.negative, p.HasValue a (value p) := by
  obtain ⟨hpos, hneg⟩ := forall_mem_guards.mp h
  have hex : ∀ p ∈ t.positive ++ t.negative, ∃ b, p.HasValue a b := by
    intro p hp
    have hin : ∀ i, ¬p.Outside a i := by
      rcases List.mem_append.mp hp with hp | hp
      · exact hpos p hp
      · exact hneg p hp
    rcases p.hasValue_or_outside a with hvalue | ⟨i, hi⟩
    · exact hvalue
    · exact absurd hi (hin i)
  choose! value hvalue using hex
  exact ⟨value, hvalue⟩

theorem enabledChecked_eq_conjunction {t : Transition} (h : ∀ g ∈ t.guards, ∀ i, ¬g.1.Outside a i)
    {value : Proposition → Bool} (hvalue : ∀ p ∈ t.positive ++ t.negative, p.HasValue a (value p)) :
    t.enabledChecked a = .ok (t.positive.all value && t.negative.all (fun p => !value p)) := by
  obtain ⟨b, hb, hpass⟩ := enabledChecked_of_inside h
  refine hb.trans (congrArg Except.ok ?_)
  have hpos : ∀ p ∈ t.positive, (p.HasValue a true ↔ value p = true) := fun p hp =>
    (hvalue p (List.mem_append_left _ hp)).iff_eq
  have hneg : ∀ p ∈ t.negative, (p.HasValue a false ↔ value p = false) := fun p hp =>
    (hvalue p (List.mem_append_right _ hp)).iff_eq
  rw [Bool.eq_iff_iff, hpass, ← enabled_iff_passes, Enabled, forall₂_congr hpos,
    forall₂_congr hneg]
  simp

/-- Which guards there are decides, if none of them is outside. -/
theorem enabledChecked_eq_of_mem_iff {t u : Transition} (h : ∀ g ∈ t.guards, ∀ i, ¬g.1.Outside a i)
    (hpos : ∀ p, p ∈ u.positive ↔ p ∈ t.positive) (hneg : ∀ p, p ∈ u.negative ↔ p ∈ t.negative) :
    u.enabledChecked a = t.enabledChecked a := by
  have hmem : ∀ P : Proposition × Bool → Prop, (∀ g ∈ u.guards, P g) ↔ ∀ g ∈ t.guards, P g := by
    intro P
    simp only [forall_mem_guards, hpos, hneg]
  obtain ⟨b, hb, ht⟩ := enabledChecked_of_inside h
  obtain ⟨c, hc, hu⟩ := enabledChecked_of_inside ((hmem _).mpr h)
  have hcb : c = b := Bool.eq_iff_iff.mpr (hu.trans ((hmem _).trans ht.symm))
  rw [hb, hc, hcb]

/-! ## The first guard decides -/

/-- All there is to say of how the guards of a transition decide. -/
structure FirstDecides (a : α) (t : Transition) : Prop where
  passed : t.enabledChecked a = .ok true ↔ ∀ g ∈ t.guards, Passes a g
  /-- The first guard that does not pass blocks. -/
  blocked : t.enabledChecked a = .ok false ↔ StopsAt (Passes a) (Blocks a) t.guards
  /-- The first guard that does not pass is outside, and is reported. -/
  outside {e : PropositionError} : t.enabledChecked a = .error e ↔
    ∃ i, StopsAt (Passes a) (fun g => g.1.Outside a i) t.guards ∧
      e = .indexOutOfBounds i (Components.count a)
  /-- Whatever stands behind a guard that blocks, the outcome is the same. -/
  behind {g : Proposition × Bool} {u : Transition} {before after after' : List (Proposition × Bool)} :
    Blocks a g → t.guards = before ++ g :: after → u.guards = before ++ g :: after' →
      u.enabledChecked a = t.enabledChecked a
  /-- Without a guard that is outside in front of it, a guard that blocks turns
  the transition off. -/
  off {g : Proposition × Bool} {before after : List (Proposition × Bool)} :
    t.guards = before ++ g :: after → (∀ h ∈ before, ∀ i, ¬h.1.Outside a i) → Blocks a g →
      t.enabledChecked a = .ok false
  /-- Without any guard that is outside, the outcome is a conjunction. -/
  conjunction : (∀ g ∈ t.guards, ∀ i, ¬g.1.Outside a i) →
    ∃ value : Proposition → Bool, (∀ p ∈ t.positive ++ t.negative, p.HasValue a (value p)) ∧
      t.enabledChecked a = .ok (t.positive.all value && t.negative.all (fun p => !value p))
  /-- Then it counts only which guards there are, not in which order, and not
  how often. -/
  reordered {u : Transition} : (∀ g ∈ t.guards, ∀ i, ¬g.1.Outside a i) →
    (∀ p, p ∈ u.positive ↔ p ∈ t.positive) → (∀ p, p ∈ u.negative ↔ p ∈ t.negative) →
      u.enabledChecked a = t.enabledChecked a

theorem first_guard_decides (a : α) (t : Transition) : FirstDecides a t where
  passed := by rw [enabledChecked_eq_true_iff, enabled_iff_passes]
  blocked := by rw [enabledChecked_eq_pass, pass_eq_false_iff]
  outside := enabledChecked_eq_error_iff
  behind := by
    intro g u before after after' hg ht hu
    rw [enabledChecked_eq_pass, enabledChecked_eq_pass, ht, hu, pass_eq_of_blocks hg before after,
      pass_eq_of_blocks hg before after']
  off := enabledChecked_of_blocks
  conjunction := by
    intro hin
    obtain ⟨value, hvalue⟩ := exists_values hin
    exact ⟨value, hvalue, enabledChecked_eq_conjunction hin hvalue⟩
  reordered := enabledChecked_eq_of_mem_iff

/-- A guard on the first species, and one on a second species behind it. -/
def firstThenSecond : Transition where
  source := "wait"
  target := "done"
  positive := [.armed ⟨0, .less, 3⟩ "x < 3" (by decide), .armed ⟨1, .less, 3⟩ "y < 3" (by decide)]
  negative := []

/-- In a row of one species the second guard is outside.  Behind a guard that
blocks it goes unnoticed, behind one that passes it is reported, and so it is
in front of one that blocks: the order counts. -/
theorem firstThenSecond_decides :
    FirstDecides [(5 : Word)] firstThenSecond ∧
      firstThenSecond.enabledChecked [(5 : Word)] = .ok false ∧
      firstThenSecond.enabledChecked [(0 : Word)] = .error (.indexOutOfBounds 1 1) ∧
      { firstThenSecond with positive := firstThenSecond.positive.reverse }.enabledChecked
        [(5 : Word)] = .error (.indexOutOfBounds 1 1) ∧
      { firstThenSecond with positive := firstThenSecond.positive.reverse }.enabledChecked
        [(5 : Word), 0] = firstThenSecond.enabledChecked [(5 : Word), 0] := by
  have hin : ∀ g ∈ firstThenSecond.guards, ∀ i, ¬g.1.Outside [(5 : Word), 0] i := by
    simp [guards, firstThenSecond, Proposition.Outside, Components.count]
  refine ⟨first_guard_decides _ _, rfl, rfl, rfl, ?_⟩
  exact (first_guard_decides [(5 : Word), 0] firstThenSecond).reordered hin
    (fun p => List.mem_reverse) (fun p => Iff.rfl)

end Transition
end GridBuchi
