/-
# `GridBuchi.Proofs.Format` — an automaton has one text

The rules by which an automaton is written down, given without the function
that writes it.  They do not say how a list of names is to be sorted, or how
the accepting ones are to be found in it.  They say that the names ascend in
byte order and are those that were added, and that the accepting ones are the
part of them whose locations are accepting.

By these rules an automaton has exactly one text, and it is the one that
`text` gives.  What makes it one is that names are different: a list that
ascends strictly is determined by its members, and a part of such a list by
the members of the part.
-/
import GridBuchi.Proofs.Renaming

namespace GridBuchi

/-! ## Lists of texts -/

/-- `Joined sep parts s`: the text `s` has all the parts in order, and `sep`
between any two of them that follow on each other, and nowhere else. -/
inductive Joined (sep : String) : List String → String → Prop
  | nil : Joined sep [] ""
  | single (part : String) : Joined sep [part] part
  | cons (part : String) {next : String} {rest : List String} {s : String} :
      Joined sep (next :: rest) s → Joined sep (part :: next :: rest) (part ++ sep ++ s)

theorem joined_iff {sep : String} {parts : List String} {s : String} :
    Joined sep parts s ↔ s = sep.intercalate parts := by
  constructor
  · intro h
    induction h with
    | nil => rfl
    | single part => exact String.intercalate_singleton.symm
    | cons part _ ih => rw [String.intercalate_cons_cons, ih]
  · rintro rfl
    induction parts with
    | nil => exact .nil
    | cons part rest ih =>
        cases rest with
        | nil =>
            rw [String.intercalate_singleton]
            exact .single part
        | cons next rest =>
            rw [String.intercalate_cons_cons]
            exact .cons part ih

namespace ByteOrder

/-- The text stands strictly before the other in byte order. -/
def Before (s t : String) : Prop := bytes s < bytes t

theorem before_of_le_of_ne {s t : String} (hle : le s t = true) (hne : s ≠ t) : Before s t := by
  rw [le, decide_eq_true_eq] at hle
  refine (List.le_iff_lt_or_eq.mp hle).resolve_right ?_
  intro heq
  exact hne (bytes_injective heq)

theorem Before.ne {s t : String} (h : Before s t) : s ≠ t := by
  rintro rfl
  exact List.lt_irrefl _ h

theorem Before.asymm {s t : String} (h : Before s t) : ¬Before t s := by
  intro h'
  exact List.lt_asymm h h'

/-- A list in strict order is determined by its members. -/
theorem eq_of_before {l m : List String} (hl : l.Pairwise Before) (hm : m.Pairwise Before)
    (h : ∀ s, s ∈ l ↔ s ∈ m) : l = m := by
  have hperm : l.Perm m :=
    (List.perm_ext_iff_of_nodup (hl.imp Before.ne) (hm.imp Before.ne)).mpr h
  refine List.Perm.eq_of_pairwise ?_ hl hm hperm
  intro s t _ _ hst hts
  exact absurd hts hst.asymm

end ByteOrder

/-! ## Guards and transitions -/

/-- How a guard is written: as `true`, whatever its caption, or by its text. -/
inductive Proposition.Written : Proposition → String → Prop
  | trivial (caption : String) : Written (.trivial caption) "true"
  | armed (test : Test) (text : String) (text_ne : text ≠ "") :
      Written (.armed test text text_ne) text

theorem Proposition.written_iff (p : Proposition) (s : String) : p.Written s ↔ s = p.display := by
  constructor
  · rintro ⟨⟩ <;> rfl
  · rintro rfl
    cases p with
    | trivial caption => exact .trivial caption
    | armed test text text_ne => exact .armed test text text_ne

namespace Transition

/-- What is written between the braces of a transition. -/
inductive GuardsWritten (t : Transition) : String → Prop
  | unguarded : t.positive = [] → t.negative = [] → GuardsWritten t ""
  | guarded {positive negative : List String} {guards : String} :
      t.positive ≠ [] ∨ t.negative ≠ [] →
      List.Forall₂ Proposition.Written t.positive positive →
      List.Forall₂ Proposition.Written t.negative negative →
      Joined " && " (positive.map (fun p => "(" ++ p ++ ")")
        ++ negative.map (fun n => "(not " ++ n ++ ")")) guards →
      GuardsWritten t ("guard " ++ guards ++ ";")

/-- How a transition is written. -/
inductive Written (t : Transition) : String → Prop
  | transition {guards : String} : t.GuardsWritten guards →
      Written t (t.source ++ "->" ++ t.target ++ " \x7b" ++ guards ++ "\x7d")

theorem guardTexts_eq_nil_iff (t : Transition) :
    t.guardTexts = [] ↔ t.positive = [] ∧ t.negative = [] := by
  simp [guardTexts]

theorem guardText_of_ne {t : Transition} (h : t.positive ≠ [] ∨ t.negative ≠ []) :
    t.guardText = "guard " ++ " && ".intercalate t.guardTexts ++ ";" := by
  rw [guardText]
  split
  · next hnil =>
      obtain ⟨hpositive, hnegative⟩ := t.guardTexts_eq_nil_iff.mp hnil
      exact absurd h (not_or.mpr ⟨not_not.mpr hpositive, not_not.mpr hnegative⟩)
  · rfl

theorem guardsWritten_iff {t : Transition} {s : String} : t.GuardsWritten s ↔ s = t.guardText := by
  constructor
  · intro h
    cases h with
    | unguarded hpositive hnegative =>
        rw [guardText, t.guardTexts_eq_nil_iff.mpr ⟨hpositive, hnegative⟩]
    | guarded hne hpositive hnegative hguards =>
        rw [(forall₂_iff_eq_map Proposition.written_iff).mp hpositive,
          (forall₂_iff_eq_map Proposition.written_iff).mp hnegative, List.map_map,
          List.map_map] at hguards
        rw [guardText_of_ne hne, joined_iff.mp hguards]
        rfl
  · rintro rfl
    by_cases h : t.positive = [] ∧ t.negative = []
    · rw [guardText, t.guardTexts_eq_nil_iff.mpr h]
      exact .unguarded h.1 h.2
    · have hne := not_and_or.mp h
      rw [guardText_of_ne hne]
      refine .guarded hne ((forall₂_iff_eq_map Proposition.written_iff).mpr rfl)
        ((forall₂_iff_eq_map Proposition.written_iff).mpr rfl) (joined_iff.mpr ?_)
      rw [List.map_map, List.map_map]
      rfl

theorem written_iff (t : Transition) (s : String) : t.Written s ↔ s = t.text := by
  constructor
  · rintro ⟨hguards⟩
    rw [guardsWritten_iff.mp hguards]
    rfl
  · rintro rfl
    exact .transition (guardsWritten_iff.mpr rfl)

end Transition

namespace Automaton

variable {A : Automaton}

/-! ## The initial location -/

/-- What is written for the initial location. -/
inductive InitialWritten (A : Automaton) : String → Prop
  | unmarked : A.initial = none → InitialWritten A ""
  | marked {id : LocationId} {name : String} : A.initial = some id → A.nameOf id = .ok name →
      InitialWritten A name

theorem initialName_of_nameOf {id : LocationId} {name : String} (hi : A.initial = some id)
    (hname : A.nameOf id = .ok name) : A.initialName = name := by
  rw [nameOf_eq_ok_iff, Names.nameAt?, names, List.getElem?_map] at hname
  obtain ⟨l, hl, rfl⟩ := Option.map_eq_some_iff.mp hname
  simp only [initialName, hi, hl]

theorem WellFormed.initialWritten_iff (hA : A.WellFormed) {s : String} :
    A.InitialWritten s ↔ s = A.initialName := by
  constructor
  · intro h
    cases h with
    | unmarked hi => simp only [initialName, hi]
    | marked hi hname => exact (initialName_of_nameOf hi hname).symm
  · rintro rfl
    cases hi : A.initial with
    | none =>
        have hname : A.initialName = "" := by simp only [initialName, hi]
        rw [hname]
        exact .unmarked hi
    | some id =>
        obtain ⟨name, hname⟩ := hA.initial id hi
        obtain ⟨first, hfirst⟩ := exists_nameOf (lt_of_id? hname)
        rw [initialName_of_nameOf hi hfirst]
        exact .marked hi hfirst

/-! ## Names in order -/

theorem perm_byName (A : Automaton) : A.byName.Perm A.locations := List.mergeSort_perm _ _

theorem WellFormed.before_byName (hA : A.WellFormed) :
    (A.byName.map Location.name).Pairwise ByteOrder.Before := by
  have hnodup : (A.byName.map Location.name).Nodup := (A.perm_byName.map _).nodup_iff.mpr hA.nodup
  have hle : (A.byName.map Location.name).Pairwise (fun s t => ByteOrder.le s t = true) :=
    List.pairwise_map.mpr A.pairwise_byName
  refine (hle.and hnodup).imp ?_
  rintro s t ⟨hle, hne⟩
  exact ByteOrder.before_of_le_of_ne hle hne

theorem mem_map_byName {name : String} : name ∈ A.byName.map Location.name ↔ name ∈ A.names :=
  (A.perm_byName.map _).mem_iff

theorem mem_map_acceptingByName {name : String} :
    name ∈ A.acceptingByName.map Location.name ↔
      ∃ l ∈ A.locations, l.name = name ∧ l.accepting = true := by
  simp only [acceptingByName, List.mem_map, List.mem_filter, A.perm_byName.mem_iff]
  constructor
  · rintro ⟨l, ⟨hl, hmark⟩, hname⟩
    exact ⟨l, hl, hname, hmark⟩
  · rintro ⟨l, hl, hname, hmark⟩
    exact ⟨l, ⟨hl, hmark⟩, hname⟩

theorem sublist_acceptingByName (A : Automaton) :
    (A.acceptingByName.map Location.name).Sublist (A.byName.map Location.name) :=
  List.filter_sublist.map _

/-! ## The whole text -/

/-- How the automaton that `calls` build is written. -/
inductive Written (calls : List BuilderCall) : String → Prop
  | process {names accepting lines : List String}
      {states initial accepts transitions : String} :
      names.Pairwise ByteOrder.Before → (∀ name, name ∈ names ↔ .addLocation name ∈ calls) →
      accepting.Sublist names →
      (∀ name, name ∈ accepting ↔
        ∃ l ∈ (build calls).locations, l.name = name ∧ l.accepting = true) →
      (build calls).InitialWritten initial →
      List.Forall₂ Transition.Written (History.transitions calls) lines →
      Joined ", " names states → Joined ", " accepting accepts →
      Joined ",\n" (lines.map ("   " ++ ·)) transitions →
      Written calls
        ("process LTL_property \x7b\n"
          ++ "state " ++ states ++ ";\n"
          ++ "init " ++ initial ++ ";\n"
          ++ "accept " ++ accepts ++ ";\n"
          ++ "trans\n"
          ++ transitions ++ ";\n"
          ++ "\x7d\n")

/-- The transitions are shown as they were handed over: ids do not show. -/
theorem map_text_transitions (calls : List BuilderCall) :
    (History.transitions calls).map Transition.text =
      (build calls).transitions.map Transition.text := by
  rw [← List.forall₂_eq_eq_eq, List.forall₂_map_left_iff, List.forall₂_map_right_iff]
  refine (records_build calls).transitions.imp ?_
  intro t u h
  simp only [Transition.text, Transition.guardText, Transition.guardTexts, h.source, h.target,
    h.positive, h.negative]

theorem joined_transitions_iff (calls : List BuilderCall) {s : String} :
    Joined ",\n" (((History.transitions calls).map Transition.text).map ("   " ++ ·)) s ↔
      s = (build calls).transitionLines := by
  rw [joined_iff, map_text_transitions, List.map_map]
  rfl

/-- An automaton has exactly one text, and `text` gives it. -/
theorem text_canonical (calls : List BuilderCall) (s : String) :
    Written calls s ↔ s = (build calls).text := by
  have hA := wellFormed_build calls
  have hmem : ∀ name,
      name ∈ (build calls).byName.map Location.name ↔ .addLocation name ∈ calls := by
    intro name
    rw [mem_map_byName, (records_build calls).names, History.mem_names, History.mem_added]
  constructor
  · rintro ⟨hnames, hadded, hsub, hmarked, hinitial, hlines, hstates, haccepts, htransitions⟩
    have hn := ByteOrder.eq_of_before hnames hA.before_byName fun name =>
      (hadded name).trans (hmem name).symm
    have ha := ByteOrder.eq_of_before (hnames.sublist hsub)
      (hA.before_byName.sublist (sublist_acceptingByName _)) fun name =>
        (hmarked name).trans mem_map_acceptingByName.symm
    rw [(forall₂_iff_eq_map Transition.written_iff).mp hlines,
      joined_transitions_iff] at htransitions
    rw [joined_iff.mp hstates, joined_iff.mp haccepts, hA.initialWritten_iff.mp hinitial, hn, ha,
      htransitions]
    rfl
  · rintro rfl
    exact .process hA.before_byName hmem (sublist_acceptingByName _)
      (fun name => mem_map_acceptingByName) (hA.initialWritten_iff.mpr rfl)
      ((forall₂_iff_eq_map Transition.written_iff).mpr rfl) (joined_iff.mpr rfl)
      (joined_iff.mpr rfl) ((joined_transitions_iff calls).mpr rfl)

end Automaton
end GridBuchi
