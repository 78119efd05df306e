/-
# `GridBuchi.Proofs.Alike` — two runs side by side

Much of what is to be said about this library compares two runs: the same
step in both evaluation modes, the same path through two automata that
number their locations differently.  The comparison has one shape
throughout.  Either both runs succeed, with values in a relation `R`, or
both fail, with failures in a relation `F`; and their logs are in a relation
`E`.  Succeeding on one side only is never alike.

The relation is closed under sequencing, so it travels through the loops of
the library one step at a time.  Which `E`, `F` and `R` it travels with is
left to the application.
-/
import GridBuchi.Logged
import Mathlib.Data.List.Forall2

namespace GridBuchi

/-- Two outcomes go together: values related by `R`, or failures related by
`F`. -/
inductive Alike {ε ε' α β : Type} (F : ε → ε' → Prop) (R : α → β → Prop) :
    Except ε α → Except ε' β → Prop
  | ok {a : α} {b : β} : R a b → Alike F R (.ok a) (.ok b)
  | error {e : ε} {f : ε'} : F e f → Alike F R (.error e) (.error f)

namespace Alike

variable {ε ε' δ δ' α β γ κ : Type} {F : ε → ε' → Prop} {R : α → β → Prop}
  {x : Except ε α} {y : Except ε' β}

theorem refl (x : Except ε α) : Alike Eq Eq x x := by
  cases x with
  | ok a => exact .ok rfl
  | error e => exact .error rfl

theorem eq {x y : Except ε α} (h : Alike Eq Eq x y) : x = y := by
  cases h with
  | ok hab => exact congrArg _ hab
  | error hef => exact congrArg _ hef

/-! ## What a pair of outcomes says of each -/

theorem ok_iff {x : Except ε α} {y : Except ε' α} (h : Alike F Eq x y) (a : α) :
    x = .ok a ↔ y = .ok a := by
  cases h with
  | ok hab => subst hab; simp
  | error _ => simp

/-- Where `F` pairs each failure with one other, a failure on the left tells
the failure on the right and the other way round. -/
theorem error_iff (hF : Relator.BiUnique F) (h : Alike F R x y) {e : ε} {f : ε'} (hef : F e f) :
    x = .error e ↔ y = .error f := by
  cases h with
  | ok _ => simp
  | error h =>
      constructor
      · intro he
        cases he
        exact congrArg _ (hF.2 h hef)
      · intro hf
        cases hf
        exact congrArg _ (hF.1 h hef)

/-- If values have to be equal and `F` pairs each failure with one other, an
outcome has only one that goes with it. -/
theorem right_unique (hF : Relator.BiUnique F) {z z' : Except ε' α} {x : Except ε α}
    (h : Alike F Eq x z) (h' : Alike F Eq x z') : z = z' := by
  cases h with
  | ok hab =>
      cases h' with
      | ok hab' => exact congrArg _ (hab.symm.trans hab')
  | error hef =>
      cases h' with
      | error hef' => exact congrArg _ (hF.2 hef hef')

/-- The same the other way round. -/
theorem left_unique (hF : Relator.BiUnique F) {x' : Except ε α} {z : Except ε' α}
    {x : Except ε α} (h : Alike F Eq x z) (h' : Alike F Eq x' z) : x = x' := by
  cases h with
  | ok hab =>
      cases h' with
      | ok hab' => exact congrArg _ (hab.trans hab'.symm)
  | error hef =>
      cases h' with
      | error hef' => exact congrArg _ (hF.1 hef hef')

/-! ## Sequencing -/

theorem imp {G : ε → ε' → Prop} {S : α → β → Prop} (h : Alike F R x y)
    (hF : ∀ {e f}, F e f → G e f) (hR : ∀ {a b}, R a b → S a b) : Alike G S x y := by
  cases h with
  | ok hab => exact .ok (hR hab)
  | error hef => exact .error (hF hef)

theorem map {S : γ → κ → Prop} {f : α → γ} {g : β → κ} (h : Alike F R x y)
    (hfg : ∀ {a b}, R a b → S (f a) (g b)) : Alike F S (x.map f) (y.map g) := by
  cases h with
  | ok hab => exact .ok (hfg hab)
  | error hef => exact .error hef

theorem mapError {G : δ → δ' → Prop} {f : ε → δ} {g : ε' → δ'} (h : Alike F R x y)
    (hfg : ∀ {d e}, F d e → G (f d) (g e)) : Alike G R (x.mapError f) (y.mapError g) := by
  cases h with
  | ok hab => exact .ok hab
  | error hef => exact .error (hfg hef)

theorem mapError_left {G : δ → ε' → Prop} {f : ε → δ} (h : Alike F R x y)
    (hf : ∀ {d e}, F d e → G (f d) e) : Alike G R (x.mapError f) y := by
  cases h with
  | ok hab => exact .ok hab
  | error hef => exact .error (hf hef)

theorem bind {S : γ → κ → Prop} {f : α → Except ε γ} {g : β → Except ε' κ} (h : Alike F R x y)
    (hfg : ∀ {a b}, R a b → Alike F S (f a) (g b)) : Alike F S (x >>= f) (y >>= g) := by
  cases h with
  | ok hab => exact hfg hab
  | error hef => exact .error hef

end Alike

/-! ## The same for lists, element by element -/

/-- Relating lists by a function is mapping it. -/
theorem forall₂_iff_eq_map {α β : Type} {R : α → β → Prop} {f : α → β}
    (h : ∀ a b, R a b ↔ b = f a) {as : List α} {bs : List β} :
    List.Forall₂ R as bs ↔ bs = as.map f := by
  induction as generalizing bs with
  | nil => rw [List.forall₂_nil_left_iff, List.map_nil]
  | cons a rest ih =>
      rw [List.forall₂_cons_left_iff, List.map_cons]
      simp only [h, ih]
      constructor
      · rintro ⟨_, _, rfl, rfl, rfl⟩
        rfl
      · rintro rfl
        exact ⟨_, _, rfl, rfl, rfl⟩

theorem forall₂_getElem? {α β : Type} {R : α → β → Prop} {as : List α} {bs : List β}
    (h : List.Forall₂ R as bs) {k : Nat} {b : β} (hb : bs[k]? = some b) :
    ∃ a, as[k]? = some a ∧ R a b := by
  induction h generalizing k with
  | nil => cases hb
  | cons hab _ ih =>
      cases k with
      | zero => cases hb; exact ⟨_, rfl, hab⟩
      | succ k => exact ih hb

/-! ## The same for results that come with a log -/

/-- A relation between logs that holds at the start and survives when both
logs go on with related events. -/
structure Sequential (E : List Event → List Event → Prop) : Prop where
  nil : E [] []
  append {l l' m m' : List Event} : E l l' → E m m' → E (l ++ m) (l' ++ m')

theorem Sequential.eq : Sequential (· = ·) where
  nil := rfl
  append hl hm := by rw [hl, hm]

/-- The logs are not compared. -/
theorem Sequential.any : Sequential (fun _ _ => True) where
  nil := trivial
  append _ _ := trivial

theorem Sequential.flatMap {E : List Event → List Event → Prop} (hE : Sequential E) {α β : Type}
    {f : α → List Event} {g : β → List Event} {as : List α} {bs : List β}
    (h : List.Forall₂ (fun a b => E (f a) (g b)) as bs) : E (as.flatMap f) (bs.flatMap g) := by
  induction h with
  | nil => exact hE.nil
  | cons hab _ ih => exact hE.append hab ih

/-- Two logged results go together, in their logs and in their outcomes. -/
structure LoggedAlike {ε ε' α β : Type} (E : List Event → List Event → Prop)
    (F : ε → ε' → Prop) (R : α → β → Prop) (x : Logged ε α) (y : Logged ε' β) : Prop where
  events : E x.events y.events
  result : Alike F R x.result y.result

namespace LoggedAlike

variable {ε ε' α β γ κ : Type} {E : List Event → List Event → Prop} {F : ε → ε' → Prop}
  {R : α → β → Prop} {x : Logged ε α} {y : Logged ε' β}

theorem silent (hE : Sequential E) {r : Except ε α} {r' : Except ε' β} (h : Alike F R r r') :
    LoggedAlike E F R (Logged.silent r) (Logged.silent r') :=
  ⟨hE.nil, h⟩

theorem pure (hE : Sequential E) {a : α} {b : β} (h : R a b) :
    LoggedAlike E F R (Pure.pure a) (Pure.pure b) :=
  silent hE (.ok h)

theorem imp {S : α → β → Prop} (h : LoggedAlike E F R x y) (hR : ∀ {a b}, R a b → S a b) :
    LoggedAlike E F S x y :=
  ⟨h.events, h.result.imp id hR⟩

theorem bind (hE : Sequential E) {S : γ → κ → Prop} {f : α → Logged ε γ} {g : β → Logged ε' κ}
    (h : LoggedAlike E F R x y) (hfg : ∀ {a b}, R a b → LoggedAlike E F S (f a) (g b)) :
    LoggedAlike E F S (x >>= f) (y >>= g) := by
  obtain ⟨xlog, xres⟩ := x
  obtain ⟨ylog, yres⟩ := y
  obtain ⟨hlog, hres⟩ := h
  cases hres with
  | ok hab =>
      obtain ⟨hlog', hres'⟩ := hfg hab
      exact ⟨hE.append hlog hlog', hres'⟩
  | error hef => exact ⟨hlog, .error hef⟩

end LoggedAlike
end GridBuchi
