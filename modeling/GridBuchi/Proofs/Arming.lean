/-
# `GridBuchi.Proofs.Arming` — propositions through their histories

A proposition is made, and then armed anew or disarmed any number of times.
Some of these calls fail, and leave what was there.  `told` is the
proposition that a list of calls comes to; what each call is worth, if it
succeeds, is its `outcome?`, which looks at the call alone.

The proposition is what the last successful call has made it.  So it is one
of two: idle, with nothing to test, true everywhere and shown as such, or
armed with the test and the text of the last successful arming.  The text is
never empty, although two quite different things see to that: arming breaches
on an empty text, and making from a code reports it before arming is tried.
-/
import GridBuchi.Proofs.Literals
import Mathlib.Data.List.Induction

namespace GridBuchi

/-- A call that makes a proposition, or changes the one that is there. -/
inductive PropositionCall where
  | new
  | compare (test : Test) (text : String)
  | ofCode (index : Nat) (code : Int) (threshold : Word) (text : String)
  /-- Arms the proposition anew. -/
  | set (test : Test) (text : String)
  /-- Makes the proposition trivial, under the default caption unless one is
  given. -/
  | disarm (caption : Option String)

namespace PropositionCall

/-- Arming with a test and a text, which has to say something. -/
def arms (test : Test) (text : String) : Option (Option (Test × String)) :=
  if text = "" then none else some (some (test, text))

/-- What a call makes of a proposition, if it succeeds: it arms it with a
test and a text, or with nothing. -/
def outcome? : PropositionCall → Option (Option (Test × String))
  | .new | .disarm _ => some none
  | .compare test text | .set test text => arms test text
  | .ofCode index n threshold text =>
      (Comparison.ofCode? n).bind fun c => arms ⟨index, c, threshold⟩ text

/-- What a call arms a proposition with, if it is an arming call and
succeeds. -/
def arming? (c : PropositionCall) : Option (Test × String) := c.outcome?.join

end PropositionCall

namespace Proposition

/-- The proposition after a call, if there is one.  A call that fails leaves
what was there, and what is not there cannot be changed. -/
def afterCall (old : Option Proposition) : PropositionCall → Option Proposition
  | .new => some truth
  | .compare test text => (compare test text).toOption.or old
  | .ofCode index n threshold text => (ofCode index n threshold text).toOption.or old
  | .set test text => old.bind fun _ => (compare test text).toOption.or old
  | .disarm caption => old.map fun _ => caption.elim truth .trivial

/-- The proposition that a list of calls comes to. -/
def told (calls : List PropositionCall) : Option Proposition := calls.foldl afterCall none

theorem told_snoc (calls : List PropositionCall) (c : PropositionCall) :
    told (calls ++ [c]) = afterCall (told calls) c := List.foldl_append

/-! ## The last call that succeeds -/

/-- What the proposition is armed with. -/
def arming? (p : Proposition) : Option (Test × String) := p.test?.map fun test => (test, p.text)

theorem map_arming?_compare (test : Test) (text : String) :
    (compare test text).toOption.map arming? = PropositionCall.arms test text := by
  rw [compare, PropositionCall.arms]
  by_cases ht : text = ""
  · rw [dif_pos ht, if_pos ht]
    rfl
  · rw [dif_neg ht, if_neg ht]
    rfl

theorem toOption_ofCode (index : Nat) (n : Int) (threshold : Word) (text : String) :
    (ofCode index n threshold text).toOption =
      (Comparison.ofCode? n).bind fun c => (compare ⟨index, c, threshold⟩ text).toOption := by
  rw [ofCode_eq]
  cases Comparison.ofCode? n with
  | none => rfl
  | some c =>
      by_cases ht : text = ""
      · subst ht
        rfl
      · simp only [dif_neg ht, Option.bind_some, compare]
        rfl

theorem map_arming?_ofCode (index : Nat) (n : Int) (threshold : Word) (text : String) :
    (ofCode index n threshold text).toOption.map arming? =
      (PropositionCall.ofCode index n threshold text).outcome? := by
  rw [toOption_ofCode, PropositionCall.outcome?, Option.map_bind]
  simp only [Function.comp_def, map_arming?_compare]

/-- If something is made it takes the place of what there was. -/
theorem or_cases {made old : Option Proposition} {o : Option (Option (Test × String))}
    {p : Proposition} (hmade : made.map arming? = o) (h : made.or old = some p) :
    (o = none ∧ old = some p) ∨ o = some p.arming? := by
  subst hmade
  rcases Option.or_eq_some_iff.mp h with rfl | ⟨rfl, hold⟩
  · exact Or.inr rfl
  · exact Or.inl ⟨rfl, hold⟩

/-- A call leaves the proposition as it was, or makes of it what the call is
worth. -/
theorem afterCall_cases {old : Option Proposition} {c : PropositionCall} {p : Proposition}
    (h : afterCall old c = some p) :
    (c.outcome? = none ∧ old = some p) ∨ c.outcome? = some p.arming? := by
  cases c with
  | new =>
      cases h
      exact Or.inr rfl
  | compare test text => exact or_cases (map_arming?_compare test text) h
  | ofCode index n threshold text => exact or_cases (map_arming?_ofCode index n threshold text) h
  | set test text =>
      obtain ⟨q, -, h⟩ := Option.bind_eq_some_iff.mp h
      exact or_cases (map_arming?_compare test text) h
  | disarm caption =>
      obtain ⟨q, -, rfl⟩ := Option.map_eq_some_iff.mp h
      cases caption <;> exact Or.inr rfl

/-- A proposition is what the last successful call has made it. -/
theorem last_outcome {calls : List PropositionCall} {p : Proposition} (h : told calls = some p) :
    (calls.filterMap PropositionCall.outcome?).getLast? = some p.arming? := by
  induction calls using List.reverseRecOn with
  | nil => cases h
  | append_singleton calls c ih =>
      rw [told_snoc] at h
      rw [List.filterMap_append]
      rcases afterCall_cases h with ⟨hc, hold⟩ | hc
      · rw [List.filterMap_cons_none hc, List.filterMap_nil, List.append_nil]
        exact ih hold
      · rw [List.filterMap_cons_some hc, List.filterMap_nil]
        exact List.getLast?_concat

/-- If the last successful call is an arming call, it is the last successful
arming call. -/
theorem last_arming {calls : List PropositionCall} {a : Test × String}
    (h : (calls.filterMap PropositionCall.outcome?).getLast? = some (some a)) :
    (calls.filterMap PropositionCall.arming?).getLast? = some a := by
  have harmings : calls.filterMap PropositionCall.arming? =
      (calls.filterMap PropositionCall.outcome?).filterMap id := by
    rw [List.filterMap_filterMap]
    refine List.filterMap_congr ?_
    intro c _
    rfl
  obtain ⟨before, hbefore⟩ := List.getLast?_eq_some_iff.mp h
  rw [harmings, hbefore, List.filterMap_append]
  exact List.getLast?_concat

/-! ## Being well formed -/

/-- The proposition tests nothing and holds everywhere, and says so. -/
structure Idle (p : Proposition) : Prop where
  isTrivial : p.isTrivial = true
  test? : p.test? = none
  /-- The caption is not shown. -/
  display : p.display = "true"
  evalTrusted {α : Type} [Components α] (a : α) : p.evalTrusted a = .ok true
  evalChecked {α : Type} [Components α] (a : α) : p.evalChecked a = .ok true

/-- The proposition has this test and is shown by this text. -/
structure ArmedWith (p : Proposition) (test : Test) (text : String) : Prop where
  isTrivial : p.isTrivial = false
  test? : p.test? = some test
  text_eq : p.text = text
  display : p.display = text
  text_ne : text ≠ ""

/-- The proposition is well formed, and it is what the calls have made of
it. -/
structure LeftBy (p : Proposition) (calls : List PropositionCall) : Prop where
  last : (calls.filterMap PropositionCall.outcome?).getLast? = some p.arming?
  wellFormed : p.Idle ∨ ∃ test text,
    (calls.filterMap PropositionCall.arming?).getLast? = some (test, text) ∧ p.ArmedWith test text

theorem idle_trivial (caption : String) : (Proposition.trivial caption).Idle :=
  ⟨rfl, rfl, rfl, fun _ => rfl, fun _ => rfl⟩

theorem leftBy_of_told {calls : List PropositionCall} {p : Proposition} (h : told calls = some p) :
    p.LeftBy calls := by
  have hlast := last_outcome h
  refine ⟨hlast, ?_⟩
  cases p with
  | trivial caption => exact Or.inl (idle_trivial caption)
  | armed test text hne => exact Or.inr ⟨test, text, last_arming hlast, rfl, rfl, rfl, rfl, hne⟩

/-! ## Making from a code -/

/-- What making a proposition from a code comes to. -/
structure MadeFromCode (index : Nat) (n : Int) (threshold : Word) (text : String) : Prop where
  succeeds : (∃ p, ofCode index n threshold text = .ok p) ↔
    (∃ c, n = Comparison.code c) ∧ text ≠ ""
  compares {c : Comparison} {p : Proposition} : n = c.code →
    (ofCode index n threshold text = .ok p ↔ compare ⟨index, c, threshold⟩ text = .ok p)
  /-- The code is complained of first, whatever the text. -/
  unsupported : (∀ c, n ≠ Comparison.code c) →
    ofCode index n threshold text = .error (.reported (.unsupportedOperator n))
  empty {c : Comparison} : n = c.code → text = "" →
    ofCode index n threshold text = .error (.reported .emptyText)
  noBreach {b : Breach} : ofCode index n threshold text ≠ .error (.breach b)

theorem madeFromCode (index : Nat) (n : Int) (threshold : Word) (text : String) :
    MadeFromCode index n threshold text where
  succeeds := by
    simp only [ofCode_eq_ok_iff]
    constructor
    · rintro ⟨_, c, hc, h, -⟩
      exact ⟨⟨c, hc⟩, h⟩
    · rintro ⟨⟨c, hc⟩, h⟩
      exact ⟨_, c, hc, h, rfl⟩
  compares := by
    intro c p hn
    rw [← Comparison.ofCode?_eq_some_iff] at hn
    simp only [ofCode_eq_ok_iff, compare_eq_ok_iff, ← Comparison.ofCode?_eq_some_iff, hn,
      Option.some.injEq, exists_eq_left']
  unsupported := by
    intro h
    have hn : Comparison.ofCode? n = none := by
      rw [Option.eq_none_iff_forall_ne_some]
      intro c hc
      exact h c (Comparison.ofCode?_eq_some_iff.mp hc)
    rw [ofCode_eq, hn]
  empty := by
    intro c hn ht
    rw [← Comparison.ofCode?_eq_some_iff] at hn
    rw [ofCode_eq, hn]
    exact dif_pos ht
  noBreach := ofCode_ne_breach

end Proposition
end GridBuchi
