/-
# `GridBuchi.Proofs.Box` — guards denote boxes of the threshold grid

Each guard of a transition bounds one component, from below or from above.
A test that asks for values from its threshold upwards is a floor where it
has to hold and a ceiling where it must not, and the other way round for a
test that asks for values below.  A transition is therefore enabled in the
rows of a box: per component, the words from its highest floor on that lie
below its lowest ceiling.

Two things are easily got wrong here.  A component without a ceiling has no
upper end, which is not the same as an upper end at the greatest word: that
word lies in the interval.  And a trivial guard bounds nothing, but where it
must not hold there is no row in which the transition is enabled.
-/
import GridBuchi.Proofs.Carriers
import GridBuchi.Proofs.TrustedLayout
import Mathlib.Data.Set.Basic

namespace GridBuchi

/-! ## Intervals of words -/

/-- The words from `lower` on that lie below `upper?`, if there is such an
end. -/
structure Interval where
  lower : Word
  upper? : Option Word
deriving DecidableEq

/-- The word lies in the interval. -/
def Interval.Contains (I : Interval) (w : Word) : Prop := I.lower ≤ w ∧ ∀ u ∈ I.upper?, w < u

/-- The interval whose lower end is the greatest of the floors, or 0, and
whose upper end is the least of the ceilings, if there are any. -/
def Interval.between (floors ceilings : List Word) : Interval where
  lower := floors.max?.getD 0
  upper? := ceilings.min?

theorem Word.max_le_iff {v w x : Word} : max v w ≤ x ↔ v ≤ x ∧ w ≤ x := by
  show (if v ≤ w then w else v) ≤ x ↔ _
  simp only [UInt64.le_iff_toNat_le]
  split <;> omega

instance : Std.LawfulOrderSup Word where
  max_le_iff _ _ _ := Word.max_le_iff

theorem Interval.contains_between {floors ceilings : List Word} {w : Word} :
    (between floors ceilings).Contains w ↔
      (∀ v ∈ floors, v ≤ w) ∧ ∀ v ∈ ceilings, w < v := by
  refine and_congr ?_ ?_
  · show floors.max?.getD 0 ≤ w ↔ _
    cases h : floors.max? with
    | none =>
        rw [List.max?_eq_none_iff.mp h]
        exact iff_of_true UInt64.zero_le (by simp)
    | some v => exact List.max?_le_iff h
  · show (∀ u ∈ ceilings.min?, w < u) ↔ _
    cases h : ceilings.min? with
    | none => simp [List.min?_eq_none_iff.mp h]
    | some v =>
        obtain ⟨hmem, hle⟩ := List.min?_eq_some_iff.mp h
        constructor
        · intro hv u hu
          exact UInt64.lt_of_lt_of_le (hv v rfl) (hle u hu)
        · rintro hall u ⟨⟩
          exact hall v hmem

/-! ## What one guard bounds -/

/-- The comparison asks for the values from the threshold upwards. -/
def Comparison.upward : Comparison → Bool
  | .less | .lessEqual => false
  | .greater | .greaterEqual => true

theorem Comparison.holds_eq_iff {c : Comparison} {w threshold : Word} {b : Bool} :
    c.holds w threshold = b ↔
      (c.upward = b → threshold ≤ w) ∧ (c.upward = !b → w < threshold) := by
  cases c <;> cases b <;> simp [holds, upward, UInt64.not_lt, UInt64.not_le]

/-- The threshold of a test of component `i` that points the way that is
asked for. -/
def Proposition.bound? (i : Nat) (upward : Bool) : Proposition → Option Word
  | .trivial _ => none
  | .armed t _ _ => if t.index = i ∧ t.comparison.upward = upward then some t.threshold else none

section Reading

variable {α : Type} [Components α] {a : α}

/-- Every component there is has been read, so what holds of all that is read
holds of all components. -/
theorem Components.forall_read_iff {P : Nat → Word → Prop} :
    (∀ i w, read a i = .ok w → P i w) ↔ ∀ i < count a, ∃ w, read a i = .ok w ∧ P i w := by
  constructor
  · intro h i hi
    obtain ⟨w, hw⟩ := read_of_lt a hi
    exact ⟨w, hw, h i w hw⟩
  · intro h i w hw
    have hi : i < count a := by
      by_contra hle
      rw [read_of_le a (Nat.le_of_not_lt hle)] at hw
      cases hw
    obtain ⟨v, hv, hP⟩ := h i hi
    rw [hw] at hv
    cases hv
    exact hP

/-- A proposition that stays inside has the value `b` if every component
lies on the side of its threshold that `b` says. -/
theorem Proposition.hasValue_iff {p : Proposition} {b : Bool} (hp : p.Within (Components.count a)) :
    p.HasValue a b ↔ (p.isTrivial = true → b = true) ∧
      ∀ i w, Components.read a i = .ok w →
        (∀ v ∈ p.bound? i b, v ≤ w) ∧ ∀ v ∈ p.bound? i (!b), w < v := by
  cases p with
  | trivial _ => simp [HasValue, isTrivial, bound?]
  | armed t _ _ =>
      obtain ⟨w, hw⟩ := Components.read_of_lt a (hp t rfl)
      simp only [HasValue, isTrivial, bound?, Comparison.holds_eq_iff, hw]
      constructor
      · rintro ⟨_, ⟨⟩, hup, hdown⟩
        refine ⟨by simp, ?_⟩
        intro i v hv
        by_cases hti : t.index = i
        · subst hti
          rw [hw] at hv
          cases hv
          exact ⟨by simpa using hup, by simpa using hdown⟩
        · exact ⟨by simp [hti], by simp [hti]⟩
      · rintro ⟨-, hall⟩
        obtain ⟨hup, hdown⟩ := hall t.index w hw
        exact ⟨w, rfl, by simpa using hup, by simpa using hdown⟩

end Reading

/-! ## The box of a transition -/

namespace Transition

/-- The thresholds that bound component `i` from below: those of the positive
guards that ask for values upwards and of the negative ones that ask for
values below. -/
def floors (t : Transition) (i : Nat) : List Word :=
  t.positive.filterMap (Proposition.bound? i true) ++
    t.negative.filterMap (Proposition.bound? i false)

/-- The thresholds that bound component `i` from above. -/
def ceilings (t : Transition) (i : Nat) : List Word :=
  t.positive.filterMap (Proposition.bound? i false) ++
    t.negative.filterMap (Proposition.bound? i true)

/-- The interval that the guards leave to component `i`. -/
def interval (t : Transition) (i : Nat) : Interval := .between (t.floors i) (t.ceilings i)

variable {α : Type} [Components α] {a : α} {t : Transition}

/-- Every component lies in its interval, and no negative guard is
trivial. -/
def InBox (a : α) (t : Transition) : Prop :=
  (∀ p ∈ t.negative, p.isTrivial = false) ∧
    ∀ i w, Components.read a i = .ok w → (t.interval i).Contains w

theorem contains_interval {i : Nat} {w : Word} :
    (t.interval i).Contains w ↔
      (∀ p ∈ t.positive, (∀ v ∈ p.bound? i true, v ≤ w) ∧ ∀ v ∈ p.bound? i false, w < v) ∧
      ∀ p ∈ t.negative, (∀ v ∈ p.bound? i false, v ≤ w) ∧ ∀ v ∈ p.bound? i true, w < v := by
  rw [interval, Interval.contains_between, floors, ceilings]
  simp only [List.forall_mem_append, List.mem_filterMap, forall_exists_index, and_imp]
  constructor
  · rintro ⟨⟨hpf, hnf⟩, hpc, hnc⟩
    exact ⟨fun p hp => ⟨fun v hv => hpf v p hp hv, fun v hv => hpc v p hp hv⟩,
      fun p hp => ⟨fun v hv => hnf v p hp hv, fun v hv => hnc v p hp hv⟩⟩
  · rintro ⟨hpos, hneg⟩
    exact ⟨⟨fun v p hp => (hpos p hp).1 v, fun v p hp => (hneg p hp).1 v⟩,
      fun v p hp => (hpos p hp).2 v, fun v p hp => (hneg p hp).2 v⟩

theorem enabled_iff_inBox (ht : t.Within (Components.count a)) : t.Enabled a ↔ t.InBox a := by
  have hpos : ∀ p ∈ t.positive, _ := fun p hp =>
    Proposition.hasValue_iff (a := a) (b := true) (ht p (List.mem_append_left _ hp))
  have hneg : ∀ p ∈ t.negative, _ := fun p hp =>
    Proposition.hasValue_iff (a := a) (b := false) (ht p (List.mem_append_right _ hp))
  rw [Enabled, forall₂_congr hpos, forall₂_congr hneg, InBox]
  simp only [contains_interval]
  constructor
  · rintro ⟨hp, hn⟩
    refine ⟨fun p hpn => by simpa using (hn p hpn).1, ?_⟩
    intro i w hw
    exact ⟨fun p hpp => (hp p hpp).2 i w hw, fun p hpn => (hn p hpn).2 i w hw⟩
  · rintro ⟨htriv, hall⟩
    refine ⟨fun p hpp => ⟨by simp, ?_⟩, fun p hpn => ⟨by simp [htriv p hpn], ?_⟩⟩
    · intro i w hw
      exact (hall i w hw).1 p hpp
    · intro i w hw
      exact (hall i w hw).2 p hpn

/-- Guards that stay inside give an answer, and both evaluators give it. -/
theorem exists_enabled (ht : t.Within (Components.count a)) :
    ∃ enabled, t.enabledTrusted a = .ok enabled ∧ t.enabledChecked a = .ok enabled := by
  cases h : t.enabledChecked a with
  | ok enabled => exact ⟨enabled, ((t.enabled_alike a).ok_iff enabled).mpr h, rfl⟩
  | error e =>
      obtain ⟨i, hstop, -⟩ := enabledChecked_eq_error_iff.mp h
      exact absurd hstop (ht.not_stopsOutside (Nat.le_refl _) i)

end Transition

/-! ## Sets of rows -/

/-- The rows each of whose components lies in an interval of its own. -/
def productOf {d : Nat} (intervals : Fin d → Interval) : Set (Vector Word d) :=
  {row | ∀ i, (intervals i).Contains row[i]}

/-- A product of intervals, or nothing at all. -/
def IsBox {d : Nat} (rows : Set (Vector Word d)) : Prop :=
  rows = ∅ ∨ ∃ intervals, rows = productOf intervals

theorem read_vector_eq_ok {d : Nat} {row : Vector Word d} {i : Nat} {w : Word} :
    Components.read row i = .ok w ↔ ∃ h : i < d, row[i] = w := by
  rw [read_toList_vector, read_list_eq_ok, Vector.getElem?_toList, Vector.getElem?_eq_some_iff]

namespace Transition

variable {d : Nat} {t : Transition}

theorem inBox_vector {row : Vector Word d} :
    t.InBox row ↔ (∀ p ∈ t.negative, p.isTrivial = false) ∧
      row ∈ productOf fun i => t.interval i := by
  refine and_congr_right fun _ => ?_
  constructor
  · intro h i
    exact h i row[i] (read_vector_eq_ok.mpr ⟨i.isLt, rfl⟩)
  · intro h i w hw
    obtain ⟨hi, rfl⟩ := read_vector_eq_ok.mp hw
    exact h ⟨i, hi⟩

/-- The rows that a transition is enabled in make up a box. -/
theorem isBox_enabled (ht : t.Within d) :
    IsBox {row : Vector Word d | t.enabledTrusted row = .ok true} := by
  have hiff : ∀ row : Vector Word d, t.enabledTrusted row = .ok true ↔ t.InBox row := by
    intro row
    rw [(t.enabled_alike row).ok_iff, enabledChecked_eq_true_iff, enabled_iff_inBox ht]
  simp only [hiff, inBox_vector]
  by_cases hn : ∀ p ∈ t.negative, p.isTrivial = false
  · refine Or.inr ⟨fun i => t.interval i, ?_⟩
    ext row
    exact and_iff_right hn
  · refine Or.inl (Set.eq_empty_of_forall_notMem ?_)
    intro row hrow
    exact hn hrow.1

end Transition

/-! ## Guards denote boxes -/

/-- Where the guards stay inside `d` components, a transition is enabled in a
state of `d` components if these lie in the intervals that the guards leave
to them and no negative guard is trivial.  Both evaluators say so, and never
fail.  The states of `d` words in which it is enabled thereby form a product
of intervals, or there are none. -/
theorem guards_denote_box (t : Transition) (d : Nat) (ht : t.Within d) :
    (∀ {α : Type} [Components α] (s : α), Components.count s = d →
      ∃ enabled, t.enabledTrusted s = .ok enabled ∧ t.enabledChecked s = .ok enabled ∧
        (enabled = true ↔ (∀ p ∈ t.negative, p.isTrivial = false) ∧
          ∀ i < d, ∃ w, Components.read s i = .ok w ∧
            (t.floors i).max?.getD 0 ≤ w ∧ ∀ u ∈ (t.ceilings i).min?, w < u)) ∧
    IsBox {row : Vector Word d | t.enabledTrusted row = .ok true} := by
  refine ⟨?_, t.isBox_enabled ht⟩
  rintro α _ s rfl
  obtain ⟨enabled, htrusted, hchecked⟩ := Transition.exists_enabled (a := s) ht
  refine ⟨enabled, htrusted, hchecked, ?_⟩
  rw [← Components.forall_read_iff]
  show _ ↔ t.InBox s
  rw [← Transition.enabled_iff_inBox ht, ← Transition.enabledChecked_eq_true_iff, hchecked,
    Except.ok.injEq]

/-- From 3 up to 7 in the first species, and from 5 up to the greatest word
in the second, by all four operators and by guards of both signs. -/
def threeToSevenAndFive : Transition where
  source := "wait"
  target := "done"
  positive := [.armed ⟨0, .greater, 3⟩ "x > 3" (by decide), .armed ⟨0, .lessEqual, 8⟩ "x <= 8" (by decide)]
  negative := [.armed ⟨0, .greaterEqual, 9⟩ "x >= 9" (by decide),
    .armed ⟨1, .less, 5⟩ "y < 5" (by decide)]

theorem threeToSevenAndFive_denotes_box :
    threeToSevenAndFive.Within 2 ∧
      threeToSevenAndFive.interval 0 = ⟨3, some 8⟩ ∧ threeToSevenAndFive.interval 1 = ⟨5, none⟩ ∧
      threeToSevenAndFive.enabledTrusted [(3 : Word), 18446744073709551615] = .ok true ∧
      threeToSevenAndFive.enabledTrusted [(8 : Word), 5] = .ok false ∧
      IsBox {row : Vector Word 2 | threeToSevenAndFive.enabledTrusted row = .ok true} := by
  have hwithin : threeToSevenAndFive.Within 2 := by decide
  exact ⟨hwithin, rfl, rfl, rfl, rfl, (guards_denote_box _ 2 hwithin).2⟩

end GridBuchi
