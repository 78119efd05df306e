/-
# `GridBuchi.Proofs.Guards` — what it means that a transition is enabled

The evaluators say how an answer is found: which guard is looked at first
and where the walk ends.  Here is what the answer means, said without them.
A proposition *has a value* in a row when the component it asks for is there
and compares as the value says; a transition is *enabled* in a row when all
its positive guards have the value true there and all its negative ones the
value false.

The two evaluators were written independently, one as a Boolean expression
over monadic `allM` and `anyM`, one as two walks.  They stop at the same
guard for every list of guards, so whatever is proved of one holds of the
other, up to the side on which a read outside the row comes out.
-/
import GridBuchi.Automaton.Product
import GridBuchi.Proofs.Alike

namespace GridBuchi

variable {α : Type} [Components α]

/-! ## Reading -/

/-- The two readers find the same component, or both find none. -/
theorem Components.read_cases (a : α) (i : Nat) :
    (∃ w, Components.read a i = .ok w ∧ Components.read? a i = some w) ∨
      (Components.read a i = .error (.readOutside (Components.count a) i) ∧
        Components.read? a i = none) := by
  by_cases h : i < Components.count a
  · obtain ⟨w, hw⟩ := Components.read_of_lt a h
    exact Or.inl ⟨w, hw, by rw [Components.read?, if_pos h, hw]; rfl⟩
  · exact Or.inr ⟨Components.read_of_le a (Nat.le_of_not_lt h), if_neg h⟩

/-- A read outside the row, as a breach on one side and as a report on the
other. -/
inductive SameRead : Breach → PropositionError → Prop
  | outside (len index : Nat) : SameRead (.readOutside len index) (.indexOutOfBounds index len)

theorem SameRead.biUnique : Relator.BiUnique SameRead := by
  constructor
  · rintro b b' e ⟨⟩ ⟨⟩; rfl
  · rintro b e e' ⟨⟩ ⟨⟩; rfl

/-! ## The two evaluators stop at the same guard -/

theorem Proposition.eval_alike (a : α) (p : Proposition) :
    Alike SameRead Eq (p.evalTrusted a) (p.evalChecked a) := by
  cases p with
  | trivial _ => exact .ok rfl
  | armed t _ _ =>
      rcases Components.read_cases a t.index with ⟨w, hr, hr'⟩ | ⟨hr, hr'⟩
      · simp only [evalTrusted, evalChecked, hr, hr']
        exact .ok rfl
      · simp only [evalTrusted, evalChecked, hr, hr']
        exact .error (.outside _ _)

namespace Transition

theorem allHold_alike (a : α) (ps : List Proposition) :
    Alike SameRead Eq (ps.allM (Proposition.evalTrusted a)) (allHold a ps) := by
  induction ps with
  | nil => exact .ok rfl
  | cons p rest ih =>
      have hp := p.eval_alike a
      simp only [List.allM, allHold]
      generalize p.evalTrusted a = x at hp ⊢
      generalize p.evalChecked a = y at hp ⊢
      cases hp with
      | error h => exact .error h
      | @ok b _ h =>
          subst h
          cases b with
          | true => exact ih
          | false => exact .ok rfl

/-- One side asks whether some guard holds, the other whether none does. -/
theorem noneHold_alike (a : α) (ps : List Proposition) :
    Alike SameRead (fun some none => none = !some)
      (ps.anyM (Proposition.evalTrusted a)) (noneHold a ps) := by
  induction ps with
  | nil => exact .ok rfl
  | cons p rest ih =>
      have hp := p.eval_alike a
      simp only [List.anyM, noneHold]
      generalize p.evalTrusted a = x at hp ⊢
      generalize p.evalChecked a = y at hp ⊢
      cases hp with
      | error h => exact .error h
      | @ok b _ h =>
          subst h
          cases b with
          | true => exact .ok rfl
          | false => exact ih

theorem enabled_alike (a : α) (t : Transition) :
    Alike SameRead Eq (t.enabledTrusted a) (t.enabledChecked a) := by
  have hpos := allHold_alike a t.positive
  have hneg := noneHold_alike a t.negative
  simp only [enabledTrusted, enabledChecked]
  generalize t.positive.allM (Proposition.evalTrusted a) = x at hpos ⊢
  generalize allHold a t.positive = y at hpos ⊢
  cases hpos with
  | error h => exact .error h
  | @ok b _ h =>
      subst h
      cases b with
      | false => exact .ok rfl
      | true =>
          generalize t.negative.anyM (Proposition.evalTrusted a) = v at hneg ⊢
          generalize noneHold a t.negative = w at hneg ⊢
          cases hneg with
          | error h => exact .error h
          | ok h => exact .ok h.symm

end Transition

/-! ## Only what is read counts -/

section Congruence

variable {β : Type} [Components β]

theorem Proposition.evalTrusted_congr {a : α} {b : β}
    (h : ∀ i, Components.read a i = Components.read b i) : evalTrusted a = evalTrusted b := by
  funext p
  cases p with
  | trivial _ => rfl
  | armed t _ _ => simp only [evalTrusted, h]

namespace Transition

variable {a : α} {b : β} {t u : Transition}

theorem enabledTrusted_congr (h : ∀ i, Components.read a i = Components.read b i)
    (hp : t.positive = u.positive) (hn : t.negative = u.negative) :
    t.enabledTrusted a = u.enabledTrusted b := by
  rw [enabledTrusted, enabledTrusted, Proposition.evalTrusted_congr h, hp, hn]

/-- The checking evaluator has no say of its own: its answer is the one that
goes with the trusting one's. -/
theorem enabledChecked_congr (h : ∀ i, Components.read a i = Components.read b i)
    (hp : t.positive = u.positive) (hn : t.negative = u.negative) :
    t.enabledChecked a = u.enabledChecked b := by
  have ht := t.enabled_alike a
  rw [enabledTrusted_congr h hp hn] at ht
  exact ht.right_unique SameRead.biUnique (u.enabled_alike b)

theorem enabled_congr (cfg : Config) (h : ∀ i, Components.read a i = Components.read b i)
    (hp : t.positive = u.positive) (hn : t.negative = u.negative) :
    t.enabled cfg a = u.enabled cfg b := by
  rw [enabled, enabled, enabledChecked_congr h hp hn, enabledTrusted_congr h hp hn]

end Transition

end Congruence

/-! ## What the answer means -/

/-- The proposition can be read in `a` and has the truth value `b` there. -/
def Proposition.HasValue (a : α) (b : Bool) : Proposition → Prop
  | .trivial _ => b = true
  | .armed t _ _ => ∃ w, Components.read a t.index = .ok w ∧ t.comparison.holds w t.threshold = b

theorem Proposition.evalTrusted_eq_ok_iff {a : α} {p : Proposition} {b : Bool} :
    p.evalTrusted a = .ok b ↔ p.HasValue a b := by
  cases p with
  | trivial _ =>
      simp only [evalTrusted, HasValue, Except.ok.injEq]
      exact eq_comm
  | armed t _ _ =>
      simp only [evalTrusted, HasValue]
      cases Components.read a t.index with
      | ok w => simp
      | error _ => simp

theorem Proposition.evalChecked_eq_ok_iff {a : α} {p : Proposition} {b : Bool} :
    p.evalChecked a = .ok b ↔ p.HasValue a b :=
  ((p.eval_alike a).ok_iff b).symm.trans evalTrusted_eq_ok_iff

namespace Transition

/-- All positive guards are true in `a` and all negative ones false. -/
def Enabled (a : α) (t : Transition) : Prop :=
  (∀ p ∈ t.positive, p.HasValue a true) ∧ ∀ p ∈ t.negative, p.HasValue a false

theorem allHold_eq_true_iff {a : α} {ps : List Proposition} :
    allHold a ps = .ok true ↔ ∀ p ∈ ps, p.HasValue a true := by
  induction ps with
  | nil => simp [allHold]
  | cons p rest ih =>
      rw [List.forall_mem_cons, ← Proposition.evalChecked_eq_ok_iff, ← ih, allHold]
      split <;> simp_all

theorem noneHold_eq_true_iff {a : α} {ps : List Proposition} :
    noneHold a ps = .ok true ↔ ∀ p ∈ ps, p.HasValue a false := by
  induction ps with
  | nil => simp [noneHold]
  | cons p rest ih =>
      rw [List.forall_mem_cons, ← Proposition.evalChecked_eq_ok_iff, ← ih, noneHold]
      split <;> simp_all

theorem enabledChecked_eq_true_iff {a : α} {t : Transition} :
    t.enabledChecked a = .ok true ↔ t.Enabled a := by
  rw [Enabled, ← allHold_eq_true_iff, ← noneHold_eq_true_iff, enabledChecked]
  split <;> simp_all

/-- Whichever evaluator is asked, the answer yes means the same. -/
theorem enabled_eq_true_iff (cfg : Config) {a : α} {t : Transition} :
    t.enabled cfg a = .ok true ↔ t.Enabled a := by
  rw [enabled]
  split
  · rw [← enabledChecked_eq_true_iff]
    cases t.enabledChecked a <;> simp [Except.mapError]
  · rw [← enabledChecked_eq_true_iff, ← (t.enabled_alike a).ok_iff]
    cases t.enabledTrusted a <;> simp [Except.mapError]

end Transition
end GridBuchi
