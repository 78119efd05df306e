/-
# `GridBuchi.Proofs.Rendering` — a state can be told from its text

Two states that are shown alike are the same state.  The text is read from
the left.  A numeral goes on as long as there are digits, and nothing that
follows one starts with a digit; behind the numeral stands a comma if there
is another entry, and the ending if there is none.  So from the first numeral
on everything can be read off.

What stands before a numeral cannot be read at all: the labels are names, and
a name may look like anything, separators and numerals included.  It need not
be read, since the label of a position is the same in both texts and can be
struck off.  Only a state without species has no label to strike off.  Its
text is the bare ending, and there the equals sign tells: no ending has one,
and every entry does.
-/
import GridBuchi.State.Text
import Mathlib.Data.List.TakeWhile

namespace GridBuchi

/-! ## Where a numeral ends -/

/-- No numeral can be continued by the text. -/
def EndsNumeral (r : List Char) : Prop := ∀ c ∈ r.head?, c.isDigit = false

theorem endsNumeral_nil : EndsNumeral [] := by
  intro c hc
  cases hc

theorem isDigit_of_mem_repr {n : Nat} {c : Char} (h : c ∈ n.repr.toList) : c.isDigit = true := by
  rw [Nat.toList_repr] at h
  exact Nat.isDigit_of_mem_toDigits (by decide) (by decide) h

theorem takeWhile_isDigit_repr (n : Nat) {r : List Char} (hr : EndsNumeral r) :
    (n.repr.toList ++ r).takeWhile Char.isDigit = n.repr.toList := by
  have hrest : r.takeWhile Char.isDigit = [] := by
    cases r with
    | nil => rfl
    | cons c _ => exact List.takeWhile_cons_of_neg (by simp [hr c rfl])
  rw [List.takeWhile_append_of_pos (fun c => isDigit_of_mem_repr), hrest, List.append_nil]

/-- A numeral and what follows it can be told apart. -/
theorem repr_append_inj {m n : Nat} {r t : List Char} (hr : EndsNumeral r) (ht : EndsNumeral t)
    (h : m.repr.toList ++ r = n.repr.toList ++ t) : m = n ∧ r = t := by
  have hnumeral : m.repr.toList = n.repr.toList := by
    rw [← takeWhile_isDigit_repr m hr, h, takeWhile_isDigit_repr n ht]
  constructor
  · have hvalue := congrArg (fun digits => Nat.ofDigitChars 10 digits 0) hnumeral
    simpa using hvalue
  · rw [hnumeral] at h
    exact List.append_cancel_left h

/-! ## Rows of labelled words -/

/-- The words of a row, each behind its label, with commas between them. -/
def entries (label : Nat → String) (row : List Word) : List Char :=
  (", ".intercalate (row.mapIdx fun i w => label i ++ w.toNat.repr)).toList

section Entries

variable {label : Nat → String}

theorem entries_singleton (w : Word) :
    entries label [w] = (label 0).toList ++ w.toNat.repr.toList := by
  simp [entries]

theorem entries_cons_cons (v w : Word) (rest : List Word) :
    entries label (v :: w :: rest) = (label 0).toList ++ (v.toNat.repr.toList ++
      (',' :: ' ' :: entries (fun i => label (i + 1)) (w :: rest))) := by
  simp [entries, List.mapIdx_cons]

/-- The text can follow a row: it continues neither a numeral nor the row. -/
def EndsRow (r : List Char) : Prop := EndsNumeral r ∧ ',' ∉ r.head?

theorem endsNumeral_comma (r : List Char) : EndsNumeral (',' :: r) := by
  intro c hc
  cases hc
  rfl

/-- Rows with the same labels, and what follows them, can be told apart
unless there is nothing in them. -/
theorem entries_append_inj {v w : Word} {vs ws : List Word} {r t : List Char} (hr : EndsRow r)
    (ht : EndsRow t) (h : entries label (v :: vs) ++ r = entries label (w :: ws) ++ t) :
    v :: vs = w :: ws ∧ r = t := by
  induction vs generalizing label v w ws with
  | nil =>
      rw [entries_singleton, List.append_assoc] at h
      cases ws with
      | nil =>
          rw [entries_singleton, List.append_assoc] at h
          obtain ⟨hvw, hrt⟩ := repr_append_inj hr.1 ht.1 (List.append_cancel_left h)
          exact ⟨by rw [UInt64.toNat_inj.mp hvw], hrt⟩
      | cons w' ws =>
          rw [entries_cons_cons, List.append_assoc, List.append_assoc] at h
          obtain ⟨-, hcomma⟩ :=
            repr_append_inj hr.1 (endsNumeral_comma _) (List.append_cancel_left h)
          exact absurd (by rw [hcomma]; rfl) hr.2
  | cons v' vs ih =>
      rw [entries_cons_cons, List.append_assoc, List.append_assoc] at h
      cases ws with
      | nil =>
          rw [entries_singleton, List.append_assoc] at h
          obtain ⟨-, hcomma⟩ :=
            repr_append_inj (endsNumeral_comma _) ht.1 (List.append_cancel_left h)
          exact absurd (by rw [← hcomma]; rfl) ht.2
      | cons w' ws =>
          rw [entries_cons_cons, List.append_assoc, List.append_assoc] at h
          obtain ⟨hvw, hrest⟩ := repr_append_inj (endsNumeral_comma _) (endsNumeral_comma _)
            (List.append_cancel_left h)
          obtain ⟨hrow, hrt⟩ := ih (List.cons.inj (List.cons.inj hrest).2).2
          exact ⟨by rw [UInt64.toNat_inj.mp hvw, hrow], hrt⟩

/-- Rows with the same labels, and what follows them, can be told apart if
neither ending could be a row with what follows it. -/
theorem entries_inj {vs ws : List Word} {r t : List Char} (hr : EndsRow r) (ht : EndsRow t)
    (hrt : ∀ w ws, r ≠ entries label (w :: ws) ++ t)
    (htr : ∀ v vs, entries label (v :: vs) ++ r ≠ t)
    (h : entries label vs ++ r = entries label ws ++ t) : vs = ws ∧ r = t := by
  cases vs with
  | nil =>
      cases ws with
      | nil => exact ⟨rfl, h⟩
      | cons w ws => exact absurd h (hrt w ws)
  | cons v vs =>
      cases ws with
      | nil => exact absurd h (htr v vs)
      | cons w ws => exact entries_append_inj hr ht h

/-- What stands before the first numeral of a row is its first label. -/
theorem exists_entries_cons (label : Nat → String) (w : Word) (ws : List Word) :
    ∃ rest, entries label (w :: ws) = (label 0).toList ++ (w.toNat.repr.toList ++ rest) := by
  cases ws with
  | nil => exact ⟨[], by rw [entries_singleton, List.append_nil]⟩
  | cons w' ws => exact ⟨_, entries_cons_cons w w' ws⟩

end Entries

namespace State

/-! ## Endings -/

theorem locationText_injective {l m : Option LocationId} (h : locationText l = locationText m) :
    l = m := by
  have h := congrArg String.toList h
  cases l with
  | none =>
      cases m with
      | none => rfl
      | some m => simp [locationText] at h
  | some l =>
      cases m with
      | none => simp [locationText] at h
      | some m =>
          rw [locationText, locationText, String.toList_append, String.toList_append] at h
          have hlm := List.append_cancel_left h
          rw [← List.append_nil l.toNat.repr.toList, ← List.append_nil m.toNat.repr.toList] at hlm
          rw [UInt32.toNat_inj.mp (repr_append_inj endsNumeral_nil endsNumeral_nil hlm).1]

theorem endsRow_locationText (l : Option LocationId) : EndsRow (locationText l).toList := by
  cases l with
  | none => simp [EndsRow, EndsNumeral, locationText]
  | some l => simp [EndsRow, EndsNumeral, locationText]

/-- No ending has an equals sign. -/
theorem equals_not_mem_locationText (l : Option LocationId) : '=' ∉ (locationText l).toList := by
  cases l with
  | none => simp [locationText]
  | some l =>
      intro h
      have hdigit : '=' ∈ l.toNat.repr.toList := by simpa [locationText] using h
      exact absurd (isDigit_of_mem_repr hdigit) (by decide)

/-! ## The two texts -/

theorem toList_text (s : State) :
    s.text.toList = '[' :: (entries (fun _ => "") s.species ++
      ']' :: (locationText s.location?).toList) := by
  have hrow : s.species.mapIdx (fun _ w => "" ++ w.toNat.repr) =
      s.species.map fun w => w.toNat.repr := by
    refine List.ext_getElem? ?_
    intro i
    simp
  rw [text, entries, hrow]
  simp only [String.toList_append, List.append_assoc]
  rfl

/-- The label of a position. -/
def label (r : Registry) (i : Nat) : String :=
  (match r.name? (Names.idAt i) with
    | some name => name
    | none => "#" ++ i.repr) ++ "="

theorem toList_display (r : Registry) (s : State) :
    (s.display r).toList = entries (label r) s.species ++ (locationText s.location?).toList := by
  rw [display, String.toList_append]
  rfl

/-- A row without labels starts with a digit. -/
theorem ne_entries_of_endsNumeral {r t : List Char} (hr : EndsNumeral r) (w : Word)
    (ws : List Word) : r ≠ entries (fun _ => "") (w :: ws) ++ t := by
  rintro rfl
  obtain ⟨rest, hrow⟩ := exists_entries_cons (fun _ => "") w ws
  obtain ⟨c, digits, hrepr⟩ :=
    List.exists_cons_of_ne_nil (l := w.toNat.repr.toList) (by simp [Nat.toDigits_ne_nil])
  have hdigit : c.isDigit = true := isDigit_of_mem_repr (by rw [hrepr]; exact List.mem_cons_self)
  rw [hrow, hrepr] at hr
  rw [hr c rfl] at hdigit
  cases hdigit

theorem text_injective {s t : State} (h : s.text = t.text) : s = t := by
  have h := congrArg String.toList h
  rw [toList_text, toList_text] at h
  have hends : ∀ x, EndsRow (']' :: (locationText x).toList) := by
    intro x
    simp [EndsRow, EndsNumeral]
  obtain ⟨hrow, hending⟩ := entries_inj (hends _) (hends _)
    (ne_entries_of_endsNumeral (hends _).1)
    (fun v vs h => ne_entries_of_endsNumeral (hends _).1 v vs h.symm) (List.cons.inj h).2
  have hlocation := String.toList_injective (List.cons.inj hending).2
  exact eq_of_views hrow (locationText_injective hlocation)

/-- A row with the labels of a registry has an equals sign. -/
theorem equals_mem_entries (r : Registry) (w : Word) (ws : List Word) :
    '=' ∈ entries (label r) (w :: ws) := by
  obtain ⟨rest, hrow⟩ := exists_entries_cons (label r) w ws
  rw [hrow]
  simp [label]

theorem display_injective (r : Registry) {s t : State} (h : s.display r = t.display r) : s = t := by
  have h := congrArg String.toList h
  rw [toList_display, toList_display] at h
  have hne : ∀ {l x : Option LocationId} (w : Word) (ws : List Word),
      (locationText l).toList ≠ entries (label r) (w :: ws) ++ (locationText x).toList := by
    intro l x w ws he
    refine equals_not_mem_locationText l ?_
    rw [he]
    exact List.mem_append_left _ (equals_mem_entries r w ws)
  obtain ⟨hrow, hending⟩ := entries_inj (endsRow_locationText _) (endsRow_locationText _) hne
    (fun v vs h => hne v vs h.symm) h
  exact eq_of_views hrow (locationText_injective (String.toList_injective hending))

/-! ## Equal texts, equal states -/

/-- States are equal exactly if their bracketed texts are, and exactly if
their texts under any one registry are, whatever names it holds and however
few. -/
theorem text_identifies_state (s t : State) :
    (s.text = t.text ↔ s = t) ∧ ∀ r : Registry, s.display r = t.display r ↔ s = t := by
  refine ⟨⟨text_injective, fun h => congrArg text h⟩, ?_⟩
  intro r
  exact ⟨display_injective r, fun h => congrArg (display r) h⟩

end State
end GridBuchi
