/-
# `GridBuchi.Proofs.Lockstep` — two explorations step by step

Two explorations are compared loop by loop.  The innermost one, the targets of
two lists of transitions, is compared in `GridBuchi.Proofs.Walk`; here are the
results of two product steps, two frontiers, two rows, two explorations.  Each
lemma takes what it needs from the loop inside it as a hypothesis and hands on
that its own results are alike, so an application has to say only what a single
transition does on both sides.

The states of the two runs are in a relation `R` that pairs each with one
other.  That is what makes collecting alike: a duplicate on one side is a
duplicate on the other.
-/
import GridBuchi.Proofs.Frontier

namespace GridBuchi.Automaton

variable {A B : Automaton} {cfg cfg' : Config} {E : List Event → List Event → Prop}
  {F : Failure AutomatonError → Failure AutomatonError → Prop}
  {L : LocationId → LocationId → Prop} {R : State → State → Prop}

/-! ## Product steps -/

/-- The candidate is the same on both sides; `hmiss` is asked for only if it
has no slot. -/
theorem pairWith_alike (hE : Sequential E) {source source' : LocationId} {c : State}
    (hmiss : c.location? = none → F (.reported .missingLocation) (.reported .missingLocation))
    (hmove : ∀ {l m}, L l m → R (State.product c.species l) (State.product c.species m) ∧
      E (traced cfg source l (State.product c.species l))
        (traced cfg' source' m (State.product c.species m)))
    {ls ms : List LocationId} (h : List.Forall₂ L ls ms) :
    LoggedAlike E F (List.Forall₂ R) (pairWith cfg source c ls) (pairWith cfg' source' c ms) := by
  induction h with
  | nil => exact .pure hE .nil
  | cons hl _ ih =>
      cases hc : c.location? with
      | none =>
          rw [pairWith_cons_of_plain hc, pairWith_cons_of_plain hc]
          exact .silent hE (.error (hmiss hc))
      | some _ =>
          have hslot : c.location?.isSome := by rw [hc]; rfl
          obtain ⟨hR, hlog⟩ := hmove hl
          rw [pairWith_cons hslot, pairWith_cons hslot]
          refine .bind hE (R := Eq) ⟨hlog, .ok rfl⟩ ?_
          intro _ _ _
          refine .bind hE ih ?_
          intro rest rest' hrest
          exact .pure hE (.cons hR hrest)

theorem synchronize_alike (hE : Sequential E) {s t c : State} {source source' : LocationId}
    (hs : s.location? = some source) (ht : t.location? = some source')
    (hsucc : Alike F (List.Forall₂ L) (A.successors cfg source s) (B.successors cfg' source' t))
    (hmiss : c.location? = none → F (.reported .missingLocation) (.reported .missingLocation))
    (hmove : ∀ {l m}, L l m → R (State.product c.species l) (State.product c.species m) ∧
      E (traced cfg source l (State.product c.species l))
        (traced cfg' source' m (State.product c.species m))) :
    LoggedAlike E F (List.Forall₂ R) (A.synchronize cfg s c) (B.synchronize cfg' t c) := by
  simp only [synchronize, hs, ht]
  refine .bind hE (.silent hE hsucc) ?_
  intro ls ms hls
  exact pairWith_alike hE hmiss hmove hls

/-! ## Frontiers -/

theorem collect_alike (hR : Relator.BiUnique R) {seen seen' found found' : List State}
    (hseen : List.Forall₂ R seen seen') (hfound : List.Forall₂ R found found') :
    List.Forall₂ R (collect seen found) (collect seen' found') := by
  induction hfound generalizing seen seen' with
  | nil => exact hseen
  | @cons s t rest rest' hst _ ih =>
      have hmem : s ∈ seen ↔ t ∈ seen' := List.rel_mem hR hst hseen
      rw [collect, collect]
      by_cases hs : s ∈ seen
      · rw [if_pos hs, if_pos (hmem.mp hs)]
        exact ih hseen
      · rw [if_neg hs, if_neg (mt hmem.mpr hs)]
        exact ih (List.rel_append hseen (.cons hst .nil))

section Explore

variable (hE : Sequential E) (hR : Relator.BiUnique R)
include hE hR

theorem advance_alike {c : State}
    (hstep : ∀ {s t}, R s t →
      LoggedAlike E F (List.Forall₂ R) (A.synchronize cfg s c) (B.synchronize cfg' t c))
    {seen seen' frontier frontier' : List State} (hseen : List.Forall₂ R seen seen')
    (hfrontier : List.Forall₂ R frontier frontier') :
    LoggedAlike E F (List.Forall₂ R) (A.advance cfg c seen frontier)
      (B.advance cfg' c seen' frontier') := by
  induction hfrontier generalizing seen seen' with
  | nil => exact .pure hE hseen
  | cons hst _ ih =>
      rw [advance, advance]
      refine .bind hE (hstep hst) ?_
      intro found found' hfound
      exact ih (collect_alike hR hseen hfound)

omit hE hR in
theorem row_alike
    (hmark : ∀ {s t}, R s t →
      Alike (fun e f => F (.reported e) (.reported f)) Eq (A.accepts s) (B.accepts t))
    {frontier frontier' : List State} (hfrontier : List.Forall₂ R frontier frontier') :
    Alike (fun e f => F (.reported e) (.reported f))
      (List.Forall₂ fun shown shown' => R shown.1 shown'.1 ∧ shown.2 = shown'.2)
      (A.row frontier) (B.row frontier') := by
  induction hfrontier with
  | nil => exact .ok .nil
  | cons hst _ ih =>
      rw [row, row]
      refine .bind (hmark hst) ?_
      intro mark mark' hm
      refine .bind ih ?_
      intro rest rest' hrest
      exact .ok (.cons ⟨hst, hm⟩ hrest)

/-- Explorations from related frontiers along the same candidates are alike
if the product steps and the marks of related states are. -/
theorem explore_alike {candidates : List State}
    (hstep : ∀ c ∈ candidates, ∀ {s t}, R s t →
      LoggedAlike E F (List.Forall₂ R) (A.synchronize cfg s c) (B.synchronize cfg' t c))
    (hmark : ∀ {s t}, R s t →
      Alike (fun e f => F (.reported e) (.reported f)) Eq (A.accepts s) (B.accepts t))
    {frontier frontier' : List State} (hfrontier : List.Forall₂ R frontier frontier') :
    LoggedAlike E F
      (List.Forall₂ (List.Forall₂ fun shown shown' => R shown.1 shown'.1 ∧ shown.2 = shown'.2))
      (A.explore cfg frontier candidates) (B.explore cfg' frontier' candidates) := by
  induction candidates generalizing frontier frontier' with
  | nil => exact .pure hE .nil
  | cons c rest ih =>
      rw [explore, explore]
      refine .bind hE (advance_alike hE hR (hstep c List.mem_cons_self) .nil hfrontier) ?_
      intro next next' hnext
      refine .bind hE (.silent hE ((row_alike hmark hnext).mapError id)) ?_
      intro first first' hfirst
      refine .bind hE (ih (fun d hd => hstep d (List.mem_cons_of_mem _ hd)) hnext) ?_
      intro others others' hothers
      exact .pure hE (.cons hfirst hothers)

end Explore

/-! ## One automaton with itself

Under two configurations the runs of one automaton go through equal states,
so all there is to compare is how the successors fail and what is logged. -/

section Self

variable (hE : Sequential E)
include hE

theorem synchronize_self_alike {s c : State}
    (hsucc : ∀ source, Alike F Eq (A.successors cfg source s) (A.successors cfg' source s))
    (hmiss : F (.reported .missingLocation) (.reported .missingLocation))
    (hlog : ∀ source l q, E (traced cfg source l q) (traced cfg' source l q)) :
    LoggedAlike E F Eq (A.synchronize cfg s c) (A.synchronize cfg' s c) := by
  cases hs : s.location? with
  | none =>
      simp only [synchronize, hs]
      exact .silent hE (.error hmiss)
  | some source =>
      have htargets := hsucc source
      rw [← List.forall₂_eq_eq_eq] at htargets
      refine (synchronize_alike (R := Eq) hE hs hs htargets (fun _ => hmiss) ?_).imp ?_
      · intro l m hlm
        subst hlm
        exact ⟨rfl, hlog source l _⟩
      · intro found found' h
        rwa [List.forall₂_eq_eq_eq] at h

theorem explore_self_alike
    (hstep : ∀ s c, LoggedAlike E F Eq (A.synchronize cfg s c) (A.synchronize cfg' s c))
    (hmark : ∀ s, Alike (fun e f => F (.reported e) (.reported f)) Eq (A.accepts s) (A.accepts s))
    (frontier candidates : List State) :
    LoggedAlike E F Eq (A.explore cfg frontier candidates) (A.explore cfg' frontier candidates) := by
  have hR : Relator.BiUnique (α := State) Eq :=
    ⟨fun _ _ _ h h' => h.trans h'.symm, fun _ _ _ h h' => h.symm.trans h'⟩
  refine (explore_alike hE hR ?_ ?_ (List.forall₂_refl frontier)).imp ?_
  · intro c _ s t hst
    subst hst
    rw [List.forall₂_eq_eq_eq]
    exact hstep s c
  · intro s t hst
    subst hst
    exact hmark s
  · intro rows rows' h
    simpa only [← Prod.ext_iff, List.forall₂_eq_eq_eq] using h

end Self
end GridBuchi.Automaton
