/-
# `GridBuchi.Proofs.Walk` — the walk along the transitions of a location

Guards are evaluated one after the other until one of them fails, and so are
the transitions that leave a location.  Which element a walk ends at is said
once for all of them by `StopsAt`: those before it pass, and what is behind it
does not matter.

For the transitions the walk is `enabledTargets`.  It is opened here and
nowhere else.  There is one equivalence for the walk that gets to the end and
one for the walk that stops, and one comparison of two walks side by side.
Everything that is said further on of the successors of a location, of one
walk after another or of one walk in place of another comes from these three.
-/
import GridBuchi.Proofs.Guards

namespace GridBuchi

/-! ## The first element that ends a walk -/

/-- A walk along the list passes elements that satisfy `P` and comes to one
that satisfies `Q`. -/
def StopsAt {α : Type} (P Q : α → Prop) (l : List α) : Prop :=
  ∃ before x after, l = before ++ x :: after ∧ (∀ y ∈ before, P y) ∧ Q x

section StopsAt

variable {α : Type} {P Q : α → Prop}

theorem not_stopsAt_nil : ¬StopsAt P Q [] := by
  rintro ⟨before, x, after, h, -, -⟩
  simp at h

theorem stopsAt_cons {x : α} {l : List α} :
    StopsAt P Q (x :: l) ↔ Q x ∨ P x ∧ StopsAt P Q l := by
  constructor
  · rintro ⟨before, y, after, hl, hbefore, hy⟩
    cases before with
    | nil =>
        obtain ⟨rfl, rfl⟩ := List.cons.inj hl
        exact Or.inl hy
    | cons z before =>
        obtain ⟨rfl, rfl⟩ := List.cons.inj hl
        obtain ⟨hz, hbefore⟩ := List.forall_mem_cons.mp hbefore
        exact Or.inr ⟨hz, before, y, after, rfl, hbefore, hy⟩
  · rintro (hx | ⟨hx, before, y, after, rfl, hbefore, hy⟩)
    · exact ⟨[], x, l, rfl, by simp, hx⟩
    · exact ⟨x :: before, y, after, rfl, List.forall_mem_cons.mpr ⟨hx, hbefore⟩, hy⟩

theorem stopsAt_append {l m : List α} :
    StopsAt P Q (l ++ m) ↔ StopsAt P Q l ∨ (∀ x ∈ l, P x) ∧ StopsAt P Q m := by
  induction l with
  | nil => simp [not_stopsAt_nil]
  | cons x l ih => rw [List.cons_append, stopsAt_cons, stopsAt_cons, ih, List.forall_mem_cons]; tauto

theorem stopsAt_map {β : Type} {f : β → α} {l : List β} :
    StopsAt P Q (l.map f) ↔ StopsAt (fun x => P (f x)) (fun x => Q (f x)) l := by
  induction l with
  | nil => simp [not_stopsAt_nil]
  | cons x l ih => rw [List.map_cons, stopsAt_cons, stopsAt_cons, ih]

/-- A condition that has nothing to do with the element can be stated apart. -/
theorem stopsAt_and {R : Prop} {l : List α} :
    StopsAt P (fun x => Q x ∧ R) l ↔ StopsAt P Q l ∧ R := by
  constructor
  · rintro ⟨before, x, after, hl, hbefore, hx, hR⟩
    exact ⟨⟨before, x, after, hl, hbefore, hx⟩, hR⟩
  · rintro ⟨⟨before, x, after, hl, hbefore, hx⟩, hR⟩
    exact ⟨before, x, after, hl, hbefore, hx, hR⟩

theorem stopsAt_exists {ι : Type} {Q : ι → α → Prop} {l : List α} :
    StopsAt P (fun x => ∃ i, Q i x) l ↔ ∃ i, StopsAt P (Q i) l := by
  constructor
  · rintro ⟨before, x, after, hl, hbefore, i, hx⟩
    exact ⟨i, before, x, after, hl, hbefore, hx⟩
  · rintro ⟨i, before, x, after, hl, hbefore, hx⟩
    exact ⟨before, x, after, hl, hbefore, i, hx⟩

theorem StopsAt.exists_mem {l : List α} (h : StopsAt P Q l) : ∃ x ∈ l, Q x := by
  obtain ⟨before, x, after, rfl, -, hx⟩ := h
  exact ⟨x, by simp, hx⟩

/-- A walk along elements that satisfy `P` or `Q` gets to the end or stops. -/
theorem forall_or_stopsAt {l : List α} (h : ∀ x ∈ l, P x ∨ Q x) :
    (∀ x ∈ l, P x) ∨ StopsAt P Q l := by
  induction l with
  | nil => exact Or.inl (by simp)
  | cons x l ih =>
      obtain ⟨hx, hl⟩ := List.forall_mem_cons.mp h
      rcases hx with hx | hx
      · rcases ih hl with hall | hstop
        · exact Or.inl (List.forall_mem_cons.mpr ⟨hx, hall⟩)
        · exact Or.inr (stopsAt_cons.mpr (Or.inr ⟨hx, hstop⟩))
      · exact Or.inr (stopsAt_cons.mpr (Or.inl hx))

theorem StopsAt.not_forall (hPQ : ∀ x, Q x → ¬P x) {l : List α} (h : StopsAt P Q l) :
    ¬∀ x ∈ l, P x := by
  intro hall
  obtain ⟨x, hx, hQ⟩ := h.exists_mem
  exact hPQ x hQ (hall x hx)

end StopsAt

/-! ## One walk -/

namespace Transition

variable {α : Type} [Components α]

instance (a : α) (t : Transition) : Decidable (t.Enabled a) :=
  match h : t.enabledChecked a with
  | .ok true => isTrue (enabledChecked_eq_true_iff.mp h)
  | .ok false => isFalse fun he => by simp [enabledChecked_eq_true_iff.mpr he] at h
  | .error _ => isFalse fun he => by simp [enabledChecked_eq_true_iff.mpr he] at h

end Transition

namespace Automaton

variable {α β : Type} [Components α] [Components β] {a : α} {b : β} {cfg cfg' : Config}
  {ts us : List Transition}

/-- The walk gets to the end if no transition fails, and has the targets of
those that are enabled. -/
theorem enabledTargets_eq_ok_iff {ls : List LocationId} :
    enabledTargets cfg a ts = .ok ls ↔
      (∀ t ∈ ts, ∃ enabled, t.enabled cfg a = .ok enabled) ∧
        ls = (ts.filter (fun t => t.Enabled a)).map Transition.targetId := by
  induction ts generalizing ls with
  | nil => simp [enabledTargets, eq_comm]
  | cons t rest ih =>
      rw [List.forall_mem_cons, enabledTargets]
      cases ht : t.enabled cfg a with
      | error f => simp
      | ok enabled =>
          have henabled : enabled = true ↔ t.Enabled a := by
            rw [← Transition.enabled_eq_true_iff cfg, ht, Except.ok.injEq]
          have hok : ∃ value, (.ok enabled : Except (Failure AutomatonError) Bool) = .ok value :=
            ⟨enabled, rfl⟩
          rw [and_iff_right hok]
          cases enabled with
          | false =>
              rw [List.filter_cons_of_neg (by simpa using henabled)]
              exact ih
          | true =>
              rw [List.filter_cons_of_pos (by simpa using henabled), List.map_cons]
              constructor
              · intro h
                cases hrest : enabledTargets cfg a rest with
                | error f =>
                    rw [hrest] at h
                    cases h
                | ok ms =>
                    rw [hrest] at h
                    cases h
                    obtain ⟨hall, rfl⟩ := ih.mp hrest
                    exact ⟨hall, rfl⟩
              · rintro ⟨hall, rfl⟩
                rw [ih.mpr ⟨hall, rfl⟩]
                rfl

/-- Otherwise it ends at the first that fails, with its failure. -/
theorem enabledTargets_eq_error_iff {f : Failure AutomatonError} :
    enabledTargets cfg a ts = .error f ↔
      StopsAt (fun t => ∃ enabled, t.enabled cfg a = .ok enabled)
        (fun t => t.enabled cfg a = .error f) ts := by
  induction ts with
  | nil => simp [enabledTargets, not_stopsAt_nil]
  | cons t rest ih =>
      rw [stopsAt_cons, ← ih, enabledTargets]
      cases t.enabled cfg a with
      | error g => simp
      | ok enabled =>
          cases enabled with
          | false => simp
          | true => cases enabledTargets cfg a rest <;> simp [Except.map]

/-- What a walk comes to, one way or the other. -/
theorem enabledTargets_cases (cfg : Config) (a : α) (ts : List Transition) :
    ((∀ t ∈ ts, ∃ enabled, t.enabled cfg a = .ok enabled) ∧
      enabledTargets cfg a ts = .ok ((ts.filter (fun t => t.Enabled a)).map Transition.targetId)) ∨
    ∃ f, StopsAt (fun t => ∃ enabled, t.enabled cfg a = .ok enabled)
      (fun t => t.enabled cfg a = .error f) ts ∧ enabledTargets cfg a ts = .error f := by
  cases h : enabledTargets cfg a ts with
  | ok ls =>
      obtain ⟨hall, rfl⟩ := enabledTargets_eq_ok_iff.mp h
      exact Or.inl ⟨hall, rfl⟩
  | error f => exact Or.inr ⟨f, enabledTargets_eq_error_iff.mp h, rfl⟩

/-- The walk along two lists is the walk along the first, and if that gets to
the end the walk along the second. -/
theorem enabledTargets_append (ts us : List Transition) :
    enabledTargets cfg a (ts ++ us) =
      enabledTargets cfg a ts >>= fun ls => (enabledTargets cfg a us).map (ls ++ ·) := by
  cases hts : enabledTargets cfg a ts with
  | error f =>
      have hstop := enabledTargets_eq_error_iff.mp hts
      exact enabledTargets_eq_error_iff.mpr (stopsAt_append.mpr (Or.inl hstop))
  | ok ls =>
      obtain ⟨hall, rfl⟩ := enabledTargets_eq_ok_iff.mp hts
      cases hus : enabledTargets cfg a us with
      | error f =>
          have hstop := enabledTargets_eq_error_iff.mp hus
          exact enabledTargets_eq_error_iff.mpr (stopsAt_append.mpr (Or.inr ⟨hall, hstop⟩))
      | ok ms =>
          obtain ⟨hall', rfl⟩ := enabledTargets_eq_ok_iff.mp hus
          refine enabledTargets_eq_ok_iff.mpr ⟨List.forall_mem_append.mpr ⟨hall, hall'⟩, ?_⟩
          rw [List.filter_append, List.map_append]

/-! ## Two walks side by side -/

/-- Two walks are alike if they are step by step. -/
theorem enabledTargets_alike {F : Failure AutomatonError → Failure AutomatonError → Prop}
    {L : LocationId → LocationId → Prop}
    (h : List.Forall₂ (fun t u => Alike F Eq (t.enabled cfg a) (u.enabled cfg' b) ∧
      L t.targetId u.targetId) ts us) :
    Alike F (List.Forall₂ L) (enabledTargets cfg a ts) (enabledTargets cfg' b us) := by
  induction h with
  | nil => exact .ok .nil
  | @cons t u ts us htu _ ih =>
      obtain ⟨hen, hl⟩ := htu
      rw [enabledTargets, enabledTargets]
      generalize t.enabled cfg a = x at hen ⊢
      generalize u.enabled cfg' b = y at hen ⊢
      cases hen with
      | error hef => exact .error hef
      | @ok enabled _ he =>
          subst he
          cases enabled with
          | true =>
              refine ih.map ?_
              intro rest rest' hrest
              exact .cons hl hrest
          | false => exact ih

/-- Only the outcomes of the transitions and their targets count. -/
theorem enabledTargets_congr
    (h : List.Forall₂ (fun t u => t.enabled cfg a = u.enabled cfg' b ∧ t.targetId = u.targetId)
      ts us) :
    enabledTargets cfg a ts = enabledTargets cfg' b us := by
  have halike : Alike Eq (List.Forall₂ Eq) (enabledTargets cfg a ts) (enabledTargets cfg' b us) := by
    refine enabledTargets_alike (h.imp ?_)
    rintro t u ⟨hen, hl⟩
    exact ⟨hen ▸ .refl _, hl⟩
  rw [List.forall₂_eq_eq_eq] at halike
  exact halike.eq

/-- The same transitions, under configurations or on rows between which none
of them can tell. -/
theorem enabledTargets_congr_self (h : ∀ t ∈ ts, t.enabled cfg a = t.enabled cfg' b) :
    enabledTargets cfg a ts = enabledTargets cfg' b ts := by
  refine enabledTargets_congr (List.forall₂_same.mpr ?_)
  intro t ht
  exact ⟨h t ht, rfl⟩

end Automaton
end GridBuchi
