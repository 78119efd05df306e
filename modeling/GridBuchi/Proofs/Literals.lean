/-
# `GridBuchi.Proofs.Literals` — what literals stand for

A literal stands for a value in a session: `Denotes` says which, without
valuing it.  A slot stands for what it holds, a constructor for what it
makes; a slot that was never filled stands for nothing, and neither does a
proposition or a state that cannot be made.  Valuing answers with the value
that is stood for, where there is one.

Of all literals only two can breach: a comparison written down with an empty
text, and a state with more species than there is room for.  In a list of
literals that is met if all before it have values.
-/
import GridBuchi.Proofs.FirstGuard
import GridBuchi.Proofs.Outcomes

namespace GridBuchi

open SessionM

variable {σ : Session}

/-! ## Which failures of the library are breaches -/

section Breaches

variable {ε ε' α : Type} {b : Breach}

theorem Failure.map_eq_breach_iff {g : ε → ε'} {f : Failure ε} :
    .breach b = f.map g ↔ f = .breach b := by
  cases f <;> simp [Failure.map, eq_comm]

@[simp] theorem mapError_breach_eq_breach {x : Except Breach α} :
    (x.mapError .breach : Except (Failure SessionError) α) = .error (.breach b) ↔ x = .error b := by
  simp [mapError_eq_error_iff]

@[simp] theorem mapError_map_eq_breach {g : ε → ε'} {x : Except (Failure ε) α} :
    x.mapError (Failure.map g) = .error (.breach b) ↔ x = .error (.breach b) := by
  simp [mapError_eq_error_iff, Failure.map_eq_breach_iff]

@[simp] theorem mapError_ofProposition_ne_breach {x : Except PropositionError α} :
    x.mapError ofProposition ≠ .error (.breach b) := by
  simp [mapError_eq_error_iff, ofProposition]

@[simp] theorem mapError_ofAutomaton_ne_breach {x : Except AutomatonError α} :
    x.mapError ofAutomaton ≠ .error (.breach b) := by
  simp [mapError_eq_error_iff, ofAutomaton]

end Breaches

/-! ## Lists of literals

Literals of either kind are valued one after the other, by the same walk. -/

/-- `values` values a list of literals one by one, from the left. -/
structure OneByOne {L V : Type} (value : L → SessionM V) (values : List L → SessionM (List V)) :
    Prop where
  nil : values [] = pure []
  cons (l : L) (rest : List L) :
    values (l :: rest) = value l >>= fun v => values rest >>= fun vs => pure (v :: vs)
  reads (l : L) : Reads (value l)

namespace OneByOne

variable {L V : Type} {value : L → SessionM V} {values : List L → SessionM (List V)}

theorem reads_values (h : OneByOne value values) (ls : List L) : Reads (values ls) := by
  induction ls with
  | nil =>
      rw [h.nil]
      exact .pure []
  | cons l rest ih =>
      rw [h.cons]
      exact .bind (h.reads l) fun _ => .bind ih fun _ => .pure _

/-- The list has values if each literal has one. -/
theorem answer_eq_ok (h : OneByOne value values) {ls : List L} {vs : List V} :
    answer (values ls) σ = .ok vs ↔ List.Forall₂ (fun l v => answer (value l) σ = .ok v) ls vs := by
  induction ls generalizing vs with
  | nil =>
      rw [h.nil, answer_pure, Except.ok.injEq, List.forall₂_nil_left_iff]
      exact eq_comm
  | cons l rest ih =>
      rw [h.cons, List.forall₂_cons_left_iff]
      simp only [answer_bind_eq_ok, (h.reads l).readOnly σ, (h.reads_values rest).readOnly σ, ih,
        answer_pure, Except.ok.injEq]
      constructor
      · rintro ⟨v, hv, vs', hvs, rfl⟩
        exact ⟨v, vs', hv, hvs, rfl⟩
      · rintro ⟨v, vs', hv, hvs, rfl⟩
        exact ⟨v, hv, vs', hvs, rfl⟩

/-- The first literal without a value is what a list fails with. -/
theorem answer_eq_error (h : OneByOne value values) {ls : List L} {e : Failure SessionError} :
    answer (values ls) σ = .error e ↔
      StopsAt (fun l => ∃ v, answer (value l) σ = .ok v) (fun l => answer (value l) σ = .error e)
        ls := by
  induction ls with
  | nil => simp [h.nil, not_stopsAt_nil]
  | cons l rest ih =>
      simp only [h.cons, answer_bind_eq_error, (h.reads l).readOnly σ, ih, answer_pure,
        reduceCtorEq, and_false, exists_false, or_false, stopsAt_cons, ← exists_and_right]

end OneByOne

/-! ## Propositions -/

theorem PropositionLiteral.reads (l : PropositionLiteral) : Reads l.value := by
  cases l with
  | slot name => exact .slot (fun _ _ => rfl) name
  | truth | caption _ => exact .pure _
  | compare _ _ | code _ _ _ _ => exact .attempt _ _

theorem PropositionLiteral.oneByOne : OneByOne value PropositionLiteral.values :=
  ⟨rfl, fun _ _ => rfl, reads⟩

theorem PropositionLiteral.reads_values (ls : List PropositionLiteral) :
    Reads (PropositionLiteral.values ls) := oneByOne.reads_values ls

@[simp] theorem PropositionLiteral.after_value (l : PropositionLiteral) (σ : Session) :
    after l.value σ = σ := l.reads.readOnly σ

@[simp] theorem PropositionLiteral.after_values (ls : List PropositionLiteral) (σ : Session) :
    after (PropositionLiteral.values ls) σ = σ := (reads_values ls).readOnly σ

/-- The proposition that a literal stands for. -/
def PropositionLiteral.Denotes (σ : Session) : PropositionLiteral → Proposition → Prop
  | .slot name, p => σ.propositions.get? name = some p
  | .truth, p => p = .truth
  | .caption text, p => p = .trivial text
  | .compare test text, p => ∃ h : text ≠ "", p = .armed test text h
  | .code index n threshold text, p =>
      ∃ c, n = Comparison.code c ∧ ∃ h : text ≠ "", p = .armed ⟨index, c, threshold⟩ text h

/-- The literal arms a proposition with an empty text. -/
def PropositionLiteral.ArmsEmpty (l : PropositionLiteral) : Prop := ∃ test, l = .compare test ""

theorem Proposition.compare_eq_ok_iff {test : Test} {text : String} {p : Proposition} :
    Proposition.compare test text = .ok p ↔ ∃ h : text ≠ "", p = .armed test text h := by
  rw [Proposition.compare]
  split
  · next h => simp [h]
  · next h => simp [h, eq_comm]

theorem Proposition.compare_eq_error_iff {test : Test} {text : String} {b : Breach} :
    Proposition.compare test text = .error b ↔ text = "" ∧ b = .emptyText := by
  rw [Proposition.compare]
  split
  · next h => simp [h, eq_comm]
  · next h => simp [h]

/-- What making a proposition from a code comes to: the comparison it arms is
never handed an empty text. -/
theorem Proposition.ofCode_eq (index : Nat) (n : Int) (threshold : Word) (text : String) :
    Proposition.ofCode index n threshold text =
      match Comparison.ofCode? n with
      | none => .error (.reported (.unsupportedOperator n))
      | some c =>
          if h : text = "" then .error (.reported .emptyText)
          else .ok (.armed ⟨index, c, threshold⟩ text h) := by
  rw [Proposition.ofCode, Comparison.ofCode]
  cases Comparison.ofCode? n with
  | none => rfl
  | some c =>
      by_cases h : text = ""
      · simp only [h, if_true, dif_pos]
      · simp only [h, if_false, dif_neg, not_false_eq_true, Proposition.compare]
        rfl

theorem Proposition.ofCode_eq_ok_iff {index : Nat} {n : Int} {threshold : Word} {text : String}
    {p : Proposition} :
    Proposition.ofCode index n threshold text = .ok p ↔
      ∃ c, n = Comparison.code c ∧ ∃ h : text ≠ "", p = .armed ⟨index, c, threshold⟩ text h := by
  simp only [← Comparison.ofCode?_eq_some_iff]
  rw [Proposition.ofCode_eq]
  cases Comparison.ofCode? n with
  | none => simp
  | some c =>
      by_cases h : text = ""
      · simp [h]
      · simp [h, eq_comm]

/-- Making a proposition from a code reports whatever is wrong. -/
theorem Proposition.ofCode_ne_breach {index : Nat} {n : Int} {threshold : Word} {text : String}
    {b : Breach} : Proposition.ofCode index n threshold text ≠ .error (.breach b) := by
  rw [Proposition.ofCode_eq]
  cases Comparison.ofCode? n with
  | none => simp
  | some c =>
      by_cases h : text = ""
      · simp [h]
      · simp [h]

@[simp] theorem PropositionLiteral.answer_value_eq_ok {l : PropositionLiteral} {p : Proposition} :
    answer l.value σ = .ok p ↔ l.Denotes σ p := by
  cases l with
  | slot name => simp [value, Denotes]
  | truth | caption _ => simpa [value, Denotes] using eq_comm
  | compare test text => simp [value, Denotes, Proposition.compare_eq_ok_iff]
  | code index n threshold text => simp [value, Denotes, Proposition.ofCode_eq_ok_iff]

@[simp] theorem PropositionLiteral.answer_value_eq_breach {l : PropositionLiteral} {b : Breach} :
    answer l.value σ = .error (.breach b) ↔ l.ArmsEmpty ∧ b = .emptyText := by
  cases l with
  | slot name => simp [value, ArmsEmpty]
  | truth | caption _ => simp [value, ArmsEmpty]
  | compare test text => simp [value, ArmsEmpty, Proposition.compare_eq_error_iff]
  | code index n threshold text => simp [value, ArmsEmpty, Proposition.ofCode_ne_breach]

/-- The literals of a list stand for the propositions of a list, each for
each. -/
@[simp] theorem PropositionLiteral.answer_values_eq_ok {ls : List PropositionLiteral}
    {ps : List Proposition} :
    answer (PropositionLiteral.values ls) σ = .ok ps ↔ List.Forall₂ (Denotes σ) ls ps := by
  simp only [oneByOne.answer_eq_ok, answer_value_eq_ok]

/-- The first literal of a list that stands for nothing arms a proposition
with an empty text. -/
@[simp] theorem PropositionLiteral.answer_values_eq_breach {ls : List PropositionLiteral}
    {b : Breach} :
    answer (PropositionLiteral.values ls) σ = .error (.breach b) ↔
      StopsAt (fun l => ∃ p, Denotes σ l p) ArmsEmpty ls ∧ b = .emptyText := by
  simp only [oneByOne.answer_eq_error, answer_value_eq_ok, answer_value_eq_breach, stopsAt_and]

/-! ## States -/

theorem StateLiteral.reads (l : StateLiteral) : Reads l.value := by
  cases l with
  | slot name => exact .slot (fun _ _ => rfl) name
  | lowest _ => exact .attempt _ _
  | plain _ | product _ _ => exact .pure _

theorem StateLiteral.oneByOne : OneByOne value StateLiteral.values :=
  ⟨rfl, fun _ _ => rfl, reads⟩

theorem StateLiteral.reads_values (ls : List StateLiteral) :
    Reads (StateLiteral.values ls) := oneByOne.reads_values ls

@[simp] theorem StateLiteral.after_value (l : StateLiteral) (σ : Session) :
    after l.value σ = σ := l.reads.readOnly σ

@[simp] theorem StateLiteral.after_values (ls : List StateLiteral) (σ : Session) :
    after (StateLiteral.values ls) σ = σ := (reads_values ls).readOnly σ

/-- The state that a literal stands for. -/
def StateLiteral.Denotes (σ : Session) : StateLiteral → State → Prop
  | .slot name, s => σ.states.get? name = some s
  | .lowest dim, s => dim < State.capacity ∧ s = State.zeros dim
  | .plain row, s => s = State.ofSpecies row
  | .product row location, s => s = State.product row location

/-- The literal asks for more species than there is room for. -/
def StateLiteral.Oversized (l : StateLiteral) : Prop :=
  ∃ dim, l = .lowest dim ∧ State.capacity ≤ dim

theorem State.lowest_eq_ok_iff {dim : Nat} {s : State} :
    State.lowest dim = .ok s ↔ dim < State.capacity ∧ s = State.zeros dim := by
  rw [lowest]
  split
  · next h => simp [h, eq_comm]
  · next h => simp [h]

theorem State.lowest_eq_error_iff {dim : Nat} {b : Breach} :
    State.lowest dim = .error b ↔ State.capacity ≤ dim ∧ b = .capacityOverflow := by
  rw [lowest]
  split
  · next h => simp [Nat.not_le.mpr h]
  · next h => simp [Nat.le_of_not_lt h, eq_comm]

@[simp] theorem StateLiteral.answer_value_eq_ok {l : StateLiteral} {s : State} :
    answer l.value σ = .ok s ↔ l.Denotes σ s := by
  cases l with
  | slot name => simp [value, Denotes]
  | lowest dim => simp [value, Denotes, State.lowest_eq_ok_iff]
  | plain _ | product _ _ => simpa [value, Denotes] using eq_comm

@[simp] theorem StateLiteral.answer_value_eq_breach {l : StateLiteral} {b : Breach} :
    answer l.value σ = .error (.breach b) ↔ l.Oversized ∧ b = .capacityOverflow := by
  cases l with
  | slot name => simp [value, Oversized]
  | lowest dim => simp [value, Oversized, State.lowest_eq_error_iff]
  | plain _ | product _ _ => simp [value, Oversized]

@[simp] theorem StateLiteral.answer_values_eq_ok {ls : List StateLiteral} {ss : List State} :
    answer (StateLiteral.values ls) σ = .ok ss ↔ List.Forall₂ (Denotes σ) ls ss := by
  simp only [oneByOne.answer_eq_ok, answer_value_eq_ok]

/-- The first literal of a list that stands for nothing asks for too much. -/
@[simp] theorem StateLiteral.answer_values_eq_breach {ls : List StateLiteral} {b : Breach} :
    answer (StateLiteral.values ls) σ = .error (.breach b) ↔
      StopsAt (fun l => ∃ s, Denotes σ l s) Oversized ls ∧ b = .capacityOverflow := by
  simp only [oneByOne.answer_eq_error, answer_value_eq_ok, answer_value_eq_breach, stopsAt_and]

/-! ## Transitions -/

theorem TransitionLiteral.reads (l : TransitionLiteral) : Reads l.value := by
  cases l with
  | slot name => exact .slot (fun _ _ => rfl) name
  | unconditional _ _ => exact .pure _
  | guarded _ _ positive negative =>
      exact .bind (PropositionLiteral.reads_values positive) fun _ =>
        .bind (PropositionLiteral.reads_values negative) fun _ => .pure _

@[simp] theorem TransitionLiteral.after_value (l : TransitionLiteral) (σ : Session) :
    after l.value σ = σ := l.reads.readOnly σ

/-- The transition that a literal stands for. -/
def TransitionLiteral.Denotes (σ : Session) : TransitionLiteral → Transition → Prop
  | .slot name, t => σ.transitions.get? name = some t
  | .unconditional source target, t => t = Transition.unconditional source target
  | .guarded source target positive negative, t =>
      ∃ ps ns, List.Forall₂ (PropositionLiteral.Denotes σ) positive ps ∧
        List.Forall₂ (PropositionLiteral.Denotes σ) negative ns ∧
        t = { source, target, positive := ps, negative := ns }

@[simp] theorem TransitionLiteral.answer_value_eq_ok {l : TransitionLiteral} {t : Transition} :
    answer l.value σ = .ok t ↔ l.Denotes σ t := by
  cases l with
  | slot name => simp [value, Denotes]
  | unconditional _ _ => simpa [value, Denotes] using eq_comm
  | guarded source target positive negative =>
      simp [value, Denotes, answer_bind_eq_ok, eq_comm (a := t), -bind_pure_comp]

end GridBuchi
