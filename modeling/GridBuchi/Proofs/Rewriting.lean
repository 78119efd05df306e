/-
# `GridBuchi.Proofs.Rewriting` — guards rewritten without changing anything

States lie between thresholds, so a strict comparison may be written for the
non-strict one, and a negative guard may be written as a positive one with
the complementary comparison.  Both are harmless to what a guard means, but
that alone does not make them harmless to a transition: guards are looked at
in order, and a guard that asks for a component outside the row is reported
if the walk gets there.

What has to stay is the sequence of verdicts.  Respelling a comparison keeps
the verdict of a guard in its place.  Complementing a negative guard keeps
its verdict too, and since negative guards are looked at right behind the
positive ones, a *prefix* of them can be moved to the end of the positive
ones without leaving its place.  So the outcome is the same down to the index
that is reported, and everything that is built on it follows.

A transition cannot be changed in an automaton, so the automaton with the
rewritten guards is built by the same calls with rewritten transitions.
-/
import GridBuchi.Proofs.Successors
import GridBuchi.Proofs.Verdict
import GridBuchi.Automaton.Exploration
import Mathlib.Logic.Relation

namespace GridBuchi

/-! ## Guards -/

/-- The comparison in the same direction with the other strictness. -/
def Comparison.toggleStrict : Comparison → Comparison
  | .less => .lessEqual
  | .lessEqual => .less
  | .greater => .greaterEqual
  | .greaterEqual => .greater

theorem Comparison.holds_toggleStrict (c : Comparison) (value threshold : Word) :
    c.toggleStrict.holds value threshold = c.holds value threshold := by
  cases c <;> rfl

namespace Proposition

/-- `p.Retested f q`: both are armed and test the same component against the
same threshold, `q` by the comparison that `f` makes of the one of `p`.  The
texts may be any. -/
inductive Retested (f : Comparison → Comparison) : Proposition → Proposition → Prop
  | armed {t : Test} {text text' : String} {h : text ≠ ""} {h' : text' ≠ ""} :
      Retested f (.armed t text h) (.armed { t with comparison := f t.comparison } text' h')

variable {α : Type} [Components α] {a : α}

theorem Retested.evalChecked {f : Comparison → Comparison} {g : Bool → Bool}
    (hfg : ∀ c value threshold, (f c).holds value threshold = g (c.holds value threshold))
    {p q : Proposition} (h : p.Retested f q) : q.evalChecked a = (p.evalChecked a).map g := by
  cases h with
  | @armed t =>
      simp only [Proposition.evalChecked]
      cases Components.read? a t.index with
      | none => rfl
      | some w => simp only [hfg, Except.map]

/-- At most the strictness of the comparison differs, and the text. -/
def Respelled (p q : Proposition) : Prop := p = q ∨ p.Retested Comparison.toggleStrict q

/-- Respelled, a guard says the same. -/
theorem Respelled.verdict {p q : Proposition} (h : p.Respelled q) (needed : Bool) :
    Transition.verdict a (p, needed) = Transition.verdict a (q, needed) := by
  rcases h with rfl | h
  · rfl
  · rw [Transition.verdict, Transition.verdict,
      h.evalChecked (g := id) fun c v t => c.holds_toggleStrict v t]
    cases p.evalChecked a <;> rfl

/-- As a negative guard the one says what the other says as a positive
guard. -/
theorem Retested.verdict_complement {p q : Proposition} (h : p.Retested Comparison.complement q) :
    Transition.verdict a (p, false) = Transition.verdict a (q, true) := by
  rw [Transition.verdict, Transition.verdict,
    h.evalChecked (g := Bool.not) fun c v t => c.holds_complement v t]
  cases p.evalChecked a with
  | error _ => rfl
  | ok b => cases b <;> rfl

end Proposition

/-! ## Transitions -/

namespace Transition

/-- `t.Rewrite u`: one way of rewriting the guards of `t` makes `u` of it. -/
inductive Rewrite (t : Transition) : Transition → Prop
  /-- Any of the guards are respelled, each in its place. -/
  | respell {positive negative : List Proposition} :
      List.Forall₂ Proposition.Respelled t.positive positive →
      List.Forall₂ Proposition.Respelled t.negative negative →
        Rewrite t { t with positive, negative }
  /-- A prefix of the negative guards, all armed, goes to the end of the
  positive ones, with the complementary comparisons. -/
  | move {moved kept added : List Proposition} : t.negative = moved ++ kept →
      List.Forall₂ (Proposition.Retested Comparison.complement) moved added →
        Rewrite t { t with positive := t.positive ++ added, negative := kept }

/-- Rewriting any number of times. -/
def Rewrites : Transition → Transition → Prop := Relation.ReflTransGen Rewrite

variable {α : Type} [Components α] {a : α} {t u : Transition}

theorem forall₂_verdict {R : Proposition → Proposition → Prop} {needed needed' : Bool}
    (hR : ∀ {p q}, R p q → verdict a (p, needed) = verdict a (q, needed'))
    {ps qs : List Proposition} (h : List.Forall₂ R ps qs) :
    List.Forall₂ (fun g k => verdict a g = verdict a k) (ps.map (·, needed)) (qs.map (·, needed')) := by
  rw [List.forall₂_map_left_iff, List.forall₂_map_right_iff]
  exact h.imp fun _ _ => hR

theorem Rewrite.enabledChecked (h : t.Rewrite u) : u.enabledChecked a = t.enabledChecked a := by
  rw [enabledChecked_eq_pass, enabledChecked_eq_pass]
  refine (pass_congr ?_).symm
  cases h with
  | respell hpos hneg =>
      exact List.rel_append (forall₂_verdict (fun h => h.verdict true) hpos)
        (forall₂_verdict (fun h => h.verdict false) hneg)
  | @move moved kept added ht hmoved =>
      have hmid := forall₂_verdict (a := a) (fun h => h.verdict_complement) hmoved
      simp only [guards, ht, List.map_append, List.append_assoc]
      exact List.rel_append (List.forall₂_refl _) (List.rel_append hmid (List.forall₂_refl _))

theorem Rewrites.enabledChecked (h : t.Rewrites u) : u.enabledChecked a = t.enabledChecked a := by
  induction h with
  | refl => rfl
  | tail _ hstep ih => rw [hstep.enabledChecked, ih]

/-- The trusting evaluator is left no choice by the checking one. -/
theorem Rewrites.enabledTrusted (h : t.Rewrites u) : u.enabledTrusted a = t.enabledTrusted a := by
  have hu := u.enabled_alike a
  rw [h.enabledChecked] at hu
  exact hu.left_unique SameRead.biUnique (t.enabled_alike a)

theorem Rewrites.enabled (h : t.Rewrites u) (cfg : Config) : u.enabled cfg a = t.enabled cfg a := by
  rw [Transition.enabled, Transition.enabled, h.enabledChecked, h.enabledTrusted]

/-- Only the guards are rewritten. -/
theorem Rewrites.eq_update (h : t.Rewrites u) :
    u = { t with positive := u.positive, negative := u.negative } := by
  induction h with
  | refl => rfl
  | tail _ hstep ih =>
      cases hstep with
      | respell _ _ | move _ _ => rw [ih]

theorem Rewrites.withIds (h : t.Rewrites u) (sourceId targetId : LocationId) :
    Rewrites { t with sourceId, targetId } { u with sourceId, targetId } := by
  refine Relation.ReflTransGen.lift (fun v : Transition => { v with sourceId, targetId }) ?_ t u h
  intro v w hstep
  cases hstep with
  | respell hpos hneg => exact .respell hpos hneg
  | move ht hmoved => exact .move ht hmoved

end Transition

/-! ## Automata -/

namespace Automaton

/-- `A.Rewrites B`: the transitions of `B` are those of `A` in the same order,
any of them rewritten.  All else is the same. -/
structure Rewrites (A B : Automaton) : Prop where
  locations : B.locations = A.locations
  initial : B.initial = A.initial
  transitions : List.Forall₂ Transition.Rewrites A.transitions B.transitions

/-- Exploring `B` goes as exploring `A`, events included. -/
structure SameRuns (A B : Automaton) : Prop where
  accepts (s : State) : B.accepts s = A.accepts s
  successors {α : Type} [Components α] (cfg : Config) (id : LocationId) (a : α) :
    B.successors cfg id a = A.successors cfg id a
  synchronize (cfg : Config) (s c : State) : B.synchronize cfg s c = A.synchronize cfg s c
  explore (cfg : Config) (frontier candidates : List State) :
    B.explore cfg frontier candidates = A.explore cfg frontier candidates

variable {A B : Automaton} {cfg : Config}

theorem advance_congr (h : ∀ s c, B.synchronize cfg s c = A.synchronize cfg s c)
    (c : State) (seen frontier : List State) :
    B.advance cfg c seen frontier = A.advance cfg c seen frontier := by
  induction frontier generalizing seen with
  | nil => rfl
  | cons s rest ih => simp only [advance, h, ih]

theorem row_congr (h : ∀ s, B.accepts s = A.accepts s) (frontier : List State) :
    B.row frontier = A.row frontier := by
  induction frontier with
  | nil => rfl
  | cons s rest ih => rw [row, row, h, ih]

theorem explore_congr (hstep : ∀ s c, B.synchronize cfg s c = A.synchronize cfg s c)
    (hmark : ∀ s, B.accepts s = A.accepts s) (frontier candidates : List State) :
    B.explore cfg frontier candidates = A.explore cfg frontier candidates := by
  induction candidates generalizing frontier with
  | nil => rfl
  | cons c rest ih => simp only [explore, advance_congr hstep, row_congr hmark, ih]

theorem Rewrites.leaving (h : A.Rewrites B) (id : LocationId) :
    List.Forall₂ Transition.Rewrites (A.leaving id) (B.leaving id) := by
  refine List.rel_filter ?_ h.transitions
  intro t u htu
  rw [htu.eq_update]

theorem Rewrites.successors (h : A.Rewrites B) {α : Type} [Components α] (cfg : Config)
    (id : LocationId) (a : α) : B.successors cfg id a = A.successors cfg id a := by
  refine (successors_congr_of_leaving (by rw [locationCount, locationCount, h.locations]) ?_).symm
  refine (h.leaving id).imp ?_
  intro t u htu
  refine ⟨(htu.enabled cfg).symm, ?_⟩
  rw [htu.eq_update]

theorem Rewrites.synchronize (h : A.Rewrites B) (cfg : Config) (s c : State) :
    B.synchronize cfg s c = A.synchronize cfg s c := by
  simp only [Automaton.synchronize, h.successors]

theorem Rewrites.accepts (h : A.Rewrites B) (s : State) : B.accepts s = A.accepts s := by
  simp only [Automaton.accepts, isAccepting, location, locationCount, h.locations]

theorem Rewrites.sameRuns (h : A.Rewrites B) : A.SameRuns B where
  accepts := h.accepts
  successors := h.successors
  synchronize := h.synchronize
  explore cfg := explore_congr (h.synchronize cfg) h.accepts

end Automaton

/-! ## Building with rewritten transitions -/

/-- The same call, up to rewriting the transition it adds. -/
inductive BuilderCall.Rewrites : BuilderCall → BuilderCall → Prop
  | same (c : BuilderCall) : Rewrites c c
  | addTransition {t u : Transition} : t.Rewrites u → Rewrites (.addTransition t) (.addTransition u)

namespace Automaton

variable {A B : Automaton}

theorem Rewrites.id? (h : A.Rewrites B) (name : String) : B.id? name = A.id? name := by
  rw [Automaton.id?, Automaton.id?, names, names, h.locations]

theorem Rewrites.afterTransition (h : A.Rewrites B) {t u : Transition} (htu : t.Rewrites u) :
    (A.after (.addTransition t)).Rewrites (B.after (.addTransition u)) := by
  have hsource : u.source = t.source := by rw [htu.eq_update]
  have htarget : u.target = t.target := by rw [htu.eq_update]
  simp only [after, addTransition, resolveTransition, resolve, h.id?, hsource, htarget]
  cases A.id? t.source with
  | none => exact h
  | some i =>
      cases A.id? t.target with
      | none => exact h
      | some j =>
          have hadded := htu.withIds i j
          rw [hsource, htarget] at hadded
          exact ⟨h.locations, h.initial, List.rel_append h.transitions (.cons hadded .nil)⟩

theorem Rewrites.after (h : A.Rewrites B) {c d : BuilderCall} (hcd : c.Rewrites d) :
    (A.after c).Rewrites (B.after d) := by
  cases hcd with
  | addTransition htu => exact h.afterTransition htu
  | same =>
      cases c with
      | addTransition t => exact h.afterTransition .refl
      | addLocation name =>
          simp only [Automaton.after, addLocation, h.id?]
          cases A.id? name with
          | none => exact ⟨by rw [h.locations], h.initial, h.transitions⟩
          | some id => exact h
      | setInitial name =>
          simp only [Automaton.after, setInitial, resolve, h.id?]
          cases A.id? name with
          | none => exact h
          | some id => exact ⟨h.locations, rfl, h.transitions⟩
      | setAccepting name =>
          simp only [Automaton.after, setAccepting, resolve, h.id?]
          cases A.id? name with
          | none => exact h
          | some id =>
              refine ⟨?_, h.initial, h.transitions⟩
              show B.locations.modify _ _ = A.locations.modify _ _
              rw [h.locations]

theorem rewrites_build {calls calls' : List BuilderCall}
    (h : List.Forall₂ BuilderCall.Rewrites calls calls') : (build calls).Rewrites (build calls') := by
  have hfold : ∀ {A B : Automaton}, A.Rewrites B →
      (calls.foldl Automaton.after A).Rewrites (calls'.foldl Automaton.after B) := by
    induction h with
    | nil => exact id
    | cons hcd _ ih => exact fun hAB => ih (hAB.after hcd)
  exact hfold ⟨rfl, rfl, .nil⟩

end Automaton

/-! ## Rewriting changes nothing -/

/-- A rewritten transition is enabled where the original is, by both
evaluators, and fails where the original fails, with the same failure.  An
automaton with rewritten transitions runs as the original does.  And this is
what is built if transitions are rewritten before they are added. -/
theorem rewriting_preserves_meaning :
    (∀ {t u : Transition}, t.Rewrites u → ∀ {α : Type} [Components α] (a : α),
        u.enabledTrusted a = t.enabledTrusted a ∧ u.enabledChecked a = t.enabledChecked a) ∧
      (∀ {A B : Automaton}, A.Rewrites B → A.SameRuns B) ∧
      ∀ {calls calls' : List BuilderCall}, List.Forall₂ BuilderCall.Rewrites calls calls' →
        (Automaton.build calls).Rewrites (Automaton.build calls') := by
  refine ⟨?_, ?_, Automaton.rewrites_build⟩
  · intro t u h α _ a
    exact ⟨h.enabledTrusted, h.enabledChecked⟩
  · intro A B h
    exact h.sameRuns

/-- One positive guard and two negative ones. -/
def threeGuards : Transition where
  source := "wait"
  target := "done"
  positive := [.armed ⟨0, .less, 3⟩ "first < 3" (by decide)]
  negative := [.armed ⟨1, .greaterEqual, 2⟩ "second >= 2" (by decide),
    .armed ⟨0, .less, 1⟩ "first < 1" (by decide)]

/-- The first of the negative guards moved. -/
def threeGuardsMoved : Transition where
  source := "wait"
  target := "done"
  positive := [.armed ⟨0, .less, 3⟩ "first < 3" (by decide),
    .armed ⟨1, .less, 2⟩ "second < 2" (by decide)]
  negative := [.armed ⟨0, .less, 1⟩ "first < 1" (by decide)]

/-- And the other two respelled. -/
def threeGuardsRespelled : Transition where
  source := "wait"
  target := "done"
  positive := [.armed ⟨0, .lessEqual, 3⟩ "first <= 3" (by decide),
    .armed ⟨1, .less, 2⟩ "second < 2" (by decide)]
  negative := [.armed ⟨0, .lessEqual, 1⟩ "first <= 1" (by decide)]

/-- In a row of one species both report that there is no second.  With the
second of the negative guards moved past the first, there would be no
report. -/
theorem threeGuards_preserve_meaning :
    threeGuards.Rewrites threeGuardsRespelled ∧
      threeGuardsRespelled.enabledChecked [(0 : Word)] = threeGuards.enabledChecked [(0 : Word)] ∧
      threeGuards.enabledChecked [(0 : Word)] = .error (.indexOutOfBounds 1 1) ∧
      (Automaton.build [.addLocation "wait", .addLocation "done", .addTransition threeGuards]).SameRuns
        (Automaton.build
          [.addLocation "wait", .addLocation "done", .addTransition threeGuardsRespelled]) ∧
      Transition.enabledChecked
        { threeGuards with
          positive := threeGuards.positive ++ [.armed ⟨0, .greaterEqual, 1⟩ "first >= 1" (by decide)]
          negative := threeGuards.negative.take 1 } [(0 : Word)] = .ok false := by
  obtain ⟨htransition, hruns, hbuild⟩ := rewriting_preserves_meaning
  have hmoved : List.Forall₂ (Proposition.Retested Comparison.complement)
      (threeGuards.negative.take 1) (threeGuardsMoved.positive.drop 1) := .cons .armed .nil
  have hmove : threeGuards.Rewrite threeGuardsMoved := .move rfl hmoved
  have hrespell : threeGuardsMoved.Rewrite threeGuardsRespelled :=
    .respell (.cons (Or.inr .armed) (.cons (Or.inl rfl) .nil)) (.cons (Or.inr .armed) .nil)
  have hrewrites : threeGuards.Rewrites threeGuardsRespelled := .tail (.single hmove) hrespell
  refine ⟨hrewrites, (htransition hrewrites _).2, rfl, hruns (hbuild ?_), rfl⟩
  exact .cons (.same _) (.cons (.same _) (.cons (.addTransition hrewrites) .nil))

end GridBuchi
