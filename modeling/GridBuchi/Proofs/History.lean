/-
# `GridBuchi.Proofs.History` — an automaton is what its calls have said

Of a list of calls one can say, without running any of them, which names have
been added and which calls named only locations that were there at the time.
From the names alone follow the locations and their ids; from the calls that
were granted follow the initial location, the accepting marks and the
transitions.  `Follows` puts this side by side with an automaton, and what is
shown is that the automaton built by a list of calls follows it.

Locations, marks, the initial location and the transitions are thereby all
determined by one list.  Ids are 32 bits wide, and the marks are set through
ids, so this needs that there are at most `2 ^ 32` different names; the names,
the initial location and the transitions come out right without that.
-/
import GridBuchi.Proofs.Builder
import Mathlib.Data.List.Forall2

namespace GridBuchi

/-! ## What a list of calls says by itself -/

namespace BuilderCall

/-- The location a call adds. -/
def location? : BuilderCall → Option String
  | .addLocation name => some name
  | _ => none

/-- The location a call makes the initial one. -/
def initial? : BuilderCall → Option String
  | .setInitial name => some name
  | _ => none

/-- The location a call marks as accepting. -/
def accepting? : BuilderCall → Option String
  | .setAccepting name => some name
  | _ => none

/-- The transition a call adds. -/
def transition? : BuilderCall → Option Transition
  | .addTransition t => some t
  | _ => none

/-- A call that needs a location adds none. -/
theorem location?_of_needs {c : BuilderCall} {name : String} (h : name ∈ c.needs) :
    c.location? = none := by
  cases c with
  | addLocation _ => cases h
  | setInitial _ | setAccepting _ | addTransition _ => rfl

end BuilderCall

namespace History

open BuilderCall

/-- The names that were added, as often as they were. -/
def added (calls : List BuilderCall) : List String := calls.filterMap location?

/-- The names that were added, each at its first addition. -/
def names (calls : List BuilderCall) : List String := (added calls).eraseDups

/-- The calls all of whose locations had been added when they were made;
`before` are the calls made earlier. -/
def granted (before : List BuilderCall) : List BuilderCall → List BuilderCall
  | [] => []
  | c :: rest =>
      if ∀ name ∈ c.needs, name ∈ added before then c :: granted (before ++ [c]) rest
      else granted (before ++ [c]) rest

/-- What the granted calls say, in order, seen through `f`. -/
def told {β : Type} (f : BuilderCall → Option β) (calls : List BuilderCall) : List β :=
  (granted [] calls).filterMap f

/-- The name that was last made initial. -/
def initial (calls : List BuilderCall) : Option String := (told initial? calls).getLast?

/-- The names that were marked as accepting. -/
def marked (calls : List BuilderCall) : List String := told accepting? calls

/-- The transitions that were taken in. -/
def transitions (calls : List BuilderCall) : List Transition := told transition? calls

theorem mem_added {calls : List BuilderCall} {name : String} :
    name ∈ added calls ↔ .addLocation name ∈ calls := by
  rw [added, List.mem_filterMap]
  constructor
  · rintro ⟨c, hc, hn⟩
    cases c with
    | addLocation _ => cases hn; exact hc
    | setInitial _ | setAccepting _ | addTransition _ => cases hn
  · intro h
    exact ⟨_, h, rfl⟩

theorem mem_names {calls : List BuilderCall} {name : String} :
    name ∈ names calls ↔ name ∈ added calls :=
  List.mem_eraseDups

theorem mem_granted_cons {before rest : List BuilderCall} {c d : BuilderCall} :
    c ∈ granted before (d :: rest) ↔
      (c = d ∧ ∀ name ∈ d.needs, name ∈ added before) ∨ c ∈ granted (before ++ [d]) rest := by
  rw [granted]
  split
  · next hd => rw [List.mem_cons, and_iff_left hd]
  · next hd =>
      rw [or_iff_right]
      rintro ⟨-, hall⟩
      exact hd hall

/-- A call is granted when the additions it needs stand before it. -/
theorem mem_granted {before calls : List BuilderCall} {c : BuilderCall} :
    c ∈ granted before calls ↔ ∃ earlier later, calls = earlier ++ c :: later ∧
      ∀ name ∈ c.needs, name ∈ added (before ++ earlier) := by
  induction calls generalizing before with
  | nil => simp [granted]
  | cons d rest ih =>
      rw [mem_granted_cons, ih]
      constructor
      · rintro (⟨rfl, hn⟩ | ⟨earlier, later, rfl, hn⟩)
        · exact ⟨[], rest, rfl, by simpa using hn⟩
        · exact ⟨d :: earlier, later, rfl, by simpa using hn⟩
      · rintro ⟨earlier, later, he, hn⟩
        cases earlier with
        | nil =>
            obtain ⟨rfl, rfl⟩ := List.cons.inj he
            exact Or.inl ⟨rfl, by simpa using hn⟩
        | cons d' earlier =>
            obtain ⟨rfl, rfl⟩ := List.cons.inj he
            exact Or.inr ⟨earlier, later, rfl, by simpa using hn⟩

theorem mem_marked {calls : List BuilderCall} {name : String} :
    name ∈ marked calls ↔ ∃ earlier later, calls = earlier ++ .setAccepting name :: later ∧
      .addLocation name ∈ earlier := by
  have hg : name ∈ marked calls ↔ .setAccepting name ∈ granted [] calls := by
    rw [marked, told, List.mem_filterMap]
    constructor
    · rintro ⟨c, hc, hn⟩
      cases c with
      | setAccepting _ => cases hn; exact hc
      | addLocation _ | setInitial _ | addTransition _ => cases hn
    · intro h
      exact ⟨_, h, rfl⟩
  rw [hg, mem_granted]
  simp [needs, mem_added]

/-- Only names that were added have been marked. -/
theorem mem_names_of_marked {calls : List BuilderCall} {name : String} (h : name ∈ marked calls) :
    name ∈ names calls := by
  obtain ⟨earlier, later, rfl, hn⟩ := mem_marked.mp h
  exact mem_names.mpr (mem_added.mpr (List.mem_append_left _ hn))

/-! ## One call more -/

theorem added_snoc (calls : List BuilderCall) (c : BuilderCall) :
    added (calls ++ [c]) = added calls ++ c.location?.toList := by
  rw [added, List.filterMap_append]
  cases h : c.location? <;> simp [added, h]

theorem names_snoc_of_mem {calls : List BuilderCall} {name : String} (h : name ∈ names calls) :
    names (calls ++ [.addLocation name]) = names calls := by
  rw [names, added_snoc]
  exact (Names.eraseDups_concat _ _).trans (if_pos (mem_names.mp h))

theorem names_snoc_of_not_mem {calls : List BuilderCall} {name : String} (h : name ∉ names calls) :
    names (calls ++ [.addLocation name]) = names calls ++ [name] := by
  rw [mem_names] at h
  rw [names, added_snoc]
  exact (Names.eraseDups_concat _ _).trans (if_neg h)

theorem names_snoc_of_none {calls : List BuilderCall} {c : BuilderCall} (h : c.location? = none) :
    names (calls ++ [c]) = names calls := by
  simp [names, added_snoc, h]

theorem granted_snoc (before calls : List BuilderCall) (c : BuilderCall) :
    granted before (calls ++ [c]) = granted before calls ++
      if ∀ name ∈ c.needs, name ∈ added (before ++ calls) then [c] else [] := by
  induction calls generalizing before with
  | nil => simp [granted]
  | cons d rest ih =>
      rw [List.cons_append, granted, granted, ih]
      split <;> simp

section Told

variable {β : Type} {f : BuilderCall → Option β} {calls : List BuilderCall} {c : BuilderCall}

theorem told_snoc_of_none (h : f c = none) : told f (calls ++ [c]) = told f calls := by
  rw [told, granted_snoc]
  split <;> simp [told, h]

theorem told_snoc_of_refused {name : String} (hn : name ∈ c.needs) (h : name ∉ names calls) :
    told f (calls ++ [c]) = told f calls := by
  have hnot : ¬∀ name ∈ c.needs, name ∈ added calls := by
    intro hall
    exact h (mem_names.mpr (hall name hn))
  rw [told, granted_snoc, List.nil_append, if_neg hnot, List.append_nil, told]

theorem told_snoc (f : BuilderCall → Option β) (h : ∀ name ∈ c.needs, name ∈ names calls) {b : β}
    (hf : f c = some b) :
    told f (calls ++ [c]) = told f calls ++ [b] := by
  rw [told, granted_snoc, List.nil_append, if_pos (fun name hn => mem_names.mp (h name hn))]
  simp [told, hf]

end Told

end History

/-! ## Side by side with the automaton -/

/-- `u` is `t` as `A` holds it: the same names and guards, and the ids that
`A` gives the two names, whatever ids `t` came with. -/
structure Transition.ResolvedIn (A : Automaton) (t u : Transition) : Prop where
  source : u.source = t.source
  target : u.target = t.target
  positive : u.positive = t.positive
  negative : u.negative = t.negative
  sourceId : A.id? t.source = some u.sourceId
  targetId : A.id? t.target = some u.targetId

namespace Automaton

open BuilderCall

/-- What holds of an automaton and its calls with any number of names. -/
structure Records (A : Automaton) (calls : List BuilderCall) : Prop where
  names : A.names = History.names calls
  initial : Option.Rel (fun name id => A.id? name = some id) (History.initial calls) A.initial
  transitions :
    List.Forall₂ (Transition.ResolvedIn A) (History.transitions calls) A.transitions

theorem optionRel_mono {α β : Type} {R S : α → β → Prop} (h : ∀ {a b}, R a b → S a b)
    {x : Option α} {y : Option β} : Option.Rel R x y → Option.Rel S x y
  | .none => .none
  | .some hab => .some (h hab)

namespace Records

variable {A B : Automaton} {calls : List BuilderCall} {c : BuilderCall}

theorem mem_names_of_id? (h : A.Records calls) {name : String} {id : LocationId}
    (hid : A.id? name = some id) : name ∈ History.names calls := by
  rw [← h.names]
  exact Names.mem_of_id? hid

theorem not_mem_names (h : A.Records calls) {name : String} (hn : name ∉ A.names) :
    name ∉ History.names calls := by
  rw [← h.names]
  exact hn

/-! Refusals are those of the history: a call is granted there exactly when
the automaton has the locations it needs.  So each part of the automaton goes
on with its calls. -/

theorem names_change (h : A.Records calls) (hc : Change A c B) :
    B.names = History.names (calls ++ [c]) := by
  cases hc with
  | refused hneed _ =>
      rw [History.names_snoc_of_none (location?_of_needs hneed)]
      exact h.names
  | known hn =>
      rw [History.names_snoc_of_mem (h.names ▸ hn)]
      exact h.names
  | location hn =>
      rw [History.names_snoc_of_not_mem (h.not_mem_names hn), ← h.names]
      simp [Automaton.names]
  | initial _ | transition _ _ =>
      rw [History.names_snoc_of_none rfl]
      exact h.names
  | accepting hid =>
      rw [History.names_snoc_of_none rfl, ← h.names]
      rcases (Change.accepting hid).names with hn | ⟨_, hcall, _⟩
      · exact hn
      · cases hcall

theorem initial_change (h : A.Records calls) (hc : Change A c B) :
    Option.Rel (fun name id => B.id? name = some id) (History.initial (calls ++ [c]))
      B.initial := by
  have hinit : Option.Rel (fun name id => B.id? name = some id) (History.initial calls)
      A.initial := optionRel_mono hc.id? h.initial
  rw [History.initial]
  cases hc with
  | refused hneed hn =>
      rw [History.told_snoc_of_refused hneed (h.not_mem_names hn)]
      exact hinit
  | known _ | location _ | accepting _ | transition _ _ =>
      rw [History.told_snoc_of_none rfl]
      exact hinit
  | @initial name id hid =>
      have hneeds : ∀ m ∈ needs (.setInitial name), m ∈ History.names calls :=
        List.forall_mem_singleton.mpr (h.mem_names_of_id? hid)
      rw [History.told_snoc initial? hneeds rfl, List.getLast?_concat]
      exact .some hid

theorem transitions_change (h : A.Records calls) (hc : Change A c B) :
    List.Forall₂ (Transition.ResolvedIn B) (History.transitions (calls ++ [c]))
      B.transitions := by
  have htrans : List.Forall₂ (Transition.ResolvedIn B) (History.transitions calls)
      A.transitions := by
    refine h.transitions.imp ?_
    intro t u ht
    exact { ht with sourceId := hc.id? ht.sourceId, targetId := hc.id? ht.targetId }
  rw [History.transitions]
  cases hc with
  | refused hneed hn =>
      rw [History.told_snoc_of_refused hneed (h.not_mem_names hn)]
      exact htrans
  | known _ | location _ | accepting _ | initial _ =>
      rw [History.told_snoc_of_none rfl]
      exact htrans
  | @transition t i j hs ht =>
      have hneeds : ∀ m ∈ needs (.addTransition t), m ∈ History.names calls :=
        List.forall_mem_cons.mpr ⟨h.mem_names_of_id? hs,
          List.forall_mem_singleton.mpr (h.mem_names_of_id? ht)⟩
      rw [History.told_snoc transition? hneeds rfl]
      exact List.rel_append htrans (.cons ⟨rfl, rfl, rfl, rfl, hs, ht⟩ .nil)

end Records

theorem records_build (calls : List BuilderCall) : (build calls).Records calls := by
  induction calls using List.reverseRecOn with
  | nil => exact ⟨rfl, .none, .nil⟩
  | append_singleton calls c ih =>
      rw [build_snoc]
      have hc := change_after (build calls) c
      exact ⟨ih.names_change hc, ih.initial_change hc, ih.transitions_change hc⟩

/-! ## Accepting marks

A mark is set through an id, so it lands on the location that was named only
as long as no id has wrapped. -/

/-- The marks are those of the granted calls. -/
def MarksOf (A : Automaton) (calls : List BuilderCall) : Prop :=
  ∀ (i : Nat) (l : Location), A.locations[i]? = some l →
    (l.accepting = true ↔ l.name ∈ History.marked calls)

theorem getElem?_names {A : Automaton} {i : Nat} {l : Location} (h : A.locations[i]? = some l) :
    A.names[i]? = some l.name := by
  rw [names, List.getElem?_map, h]
  rfl

theorem WellFormed.index_unique {A : Automaton} (hA : A.WellFormed) {i j : Nat} {name : String}
    (hi : A.names[i]? = some name) (hj : A.names[j]? = some name) : i = j := by
  obtain ⟨hlt, -⟩ := List.getElem?_eq_some_iff.mp hi
  exact (List.getElem?_inj hlt hA.nodup).mp (hi.trans hj.symm)

theorem MarksOf.change {A B : Automaton} {calls : List BuilderCall} {c : BuilderCall}
    (h : A.MarksOf calls) (hA : A.WellFormed) (hr : A.Records calls)
    (hb : A.locationCount ≤ UInt32.size) (hc : Change A c B) : B.MarksOf (calls ++ [c]) := by
  intro i l hl
  cases hc with
  | refused hneed hn =>
      rw [History.marked, History.told_snoc_of_refused hneed (hr.not_mem_names hn)]
      exact h i l hl
  | known _ | initial _ | transition _ _ =>
      rw [History.marked, History.told_snoc_of_none rfl]
      exact h i l hl
  | @location name hn =>
      rw [History.marked, History.told_snoc_of_none rfl]
      rcases Nat.lt_or_ge i A.locations.length with hi | hi
      · rw [List.getElem?_append_left hi] at hl
        exact h i l hl
      · rw [List.getElem?_append_right hi] at hl
        obtain rfl := List.mem_singleton.mp (List.mem_of_getElem? hl)
        -- the name was unknown until now, so no mark for it can have been granted
        have hnot : name ∉ History.marked calls := by
          intro hm
          exact hr.not_mem_names hn (History.mem_names_of_marked hm)
        exact iff_of_false Bool.false_ne_true hnot
  | @accepting name id hid =>
      have hneeds : ∀ m ∈ needs (.setAccepting name), m ∈ History.names calls :=
        List.forall_mem_singleton.mpr (hr.mem_names_of_id? hid)
      have hname : A.names[id.toNat]? = some name :=
        Names.nameAt?_of_id? (A.length_names ▸ hb) hid
      rw [History.marked, History.told_snoc accepting? hneeds rfl, List.mem_append,
        List.mem_singleton]
      rw [List.getElem?_modify] at hl
      split at hl
      · next hi =>
          obtain ⟨m, hm, rfl⟩ := Option.map_eq_some_iff.mp hl
          have hmn : m.name = name :=
            Option.some.inj ((hi ▸ getElem?_names hm).symm.trans hname)
          exact iff_of_true rfl (Or.inr hmn)
      · next hi =>
          have hl' : A.locations[i]? = some l := by simpa using hl
          have hne : l.name ≠ name := by
            intro he
            exact hi (hA.index_unique hname (he ▸ getElem?_names hl'))
          rw [or_iff_left hne]
          exact h i l hl'

theorem Change.locationCount_le {A B : Automaton} {c : BuilderCall} (h : Change A c B) :
    A.locationCount ≤ B.locationCount := by
  rw [← A.length_names, ← B.length_names]
  rcases h.names with hn | ⟨name, -, -, hn⟩
  · exact Nat.le_of_eq (congrArg _ hn.symm)
  · rw [hn, List.length_append]; exact Nat.le_add_right _ _

theorem marksOf_build {calls : List BuilderCall} (hb : (build calls).locationCount ≤ UInt32.size) :
    (build calls).MarksOf calls := by
  induction calls using List.reverseRecOn with
  | nil =>
      intro i l hl
      cases hl
  | append_singleton calls c ih =>
      rw [build_snoc] at hb ⊢
      have hc := change_after (build calls) c
      have hb' := Nat.le_trans hc.locationCount_le hb
      exact (ih hb').change (wellFormed_build calls) (records_build calls) hb' hc

/-! ## The automaton is exactly what its history says -/

/-- Everything an automaton holds and hands out, as its calls determine it. -/
structure Follows (A : Automaton) (calls : List BuilderCall) : Prop where
  /-- A name has an id if it was ever added. -/
  known : ∀ name, (A.id? name).isSome ↔ .addLocation name ∈ calls
  /-- The id is the rank of the name among the different names. -/
  rank : ∀ name, (A.id? name).map UInt32.toNat = (History.names calls).idxOf? name
  name_of_id : ∀ name id, A.id? name = some id → A.nameOf id = .ok name
  id_of_name : ∀ id : LocationId, id.toNat < A.locationCount →
    ∃ name, A.nameOf id = .ok name ∧ A.id? name = some id
  /-- A location is accepting if it was marked at some time after it was
  added. -/
  accepting : ∀ name id, A.id? name = some id → ∃ mark, A.isAccepting id = .ok mark ∧
    (mark = true ↔ ∃ earlier later, calls = earlier ++ .setAccepting name :: later ∧
      .addLocation name ∈ earlier)
  /-- Adding a name again changes nothing, its mark included. -/
  readded : ∀ name id, A.id? name = some id → A.addLocation name = (id, A)
  /-- The initial location is the last one that was marked when known. -/
  initial : Option.Rel (fun name id => A.id? name = some id) (History.initial calls) A.initial
  /-- The transitions are those whose names were both known, in order. -/
  transitions :
    List.Forall₂ (Transition.ResolvedIn A) (History.transitions calls) A.transitions

/-- Every automaton that is built follows its calls, refused ones included,
unless it was given more names than there are ids. -/
theorem build_follows_history (calls : List BuilderCall)
    (h : (History.names calls).length ≤ UInt32.size) : (build calls).Follows calls := by
  have hr := records_build calls
  have hwf := wellFormed_build calls
  have hb : (build calls).locationCount ≤ UInt32.size := by
    rw [← length_names, hr.names]; exact h
  refine ⟨?_, ?_, ?_, ?_, ?_, ?_, hr.initial, hr.transitions⟩
  · intro name
    rw [← History.mem_added, ← History.mem_names, ← hr.names, Option.isSome_iff_exists]
    exact ⟨fun ⟨_, hid⟩ => Names.mem_of_id? hid, Names.exists_id?⟩
  · intro name
    rw [id?, hr.names]
    exact Names.toNat_id? h name
  · intro name id hid
    exact nameOf_of_id? hb hid
  · intro id hid
    obtain ⟨name, hn⟩ := exists_nameOf hid
    exact ⟨name, hn, hwf.id?_of_nameOf hn⟩
  · intro name id hid
    have hlt := lt_of_id? hid
    have hname : (build calls).locations[id.toNat].name = name := by
      have hn := nameOf_of_id? hb hid
      rw [nameOf, location_of_lt hlt] at hn
      exact Except.ok.inj hn
    refine ⟨(build calls).locations[id.toNat].accepting, ?_, ?_⟩
    · rw [isAccepting, location_of_lt hlt]
      rfl
    · rw [marksOf_build hb id.toNat _ (List.getElem?_eq_getElem hlt), hname, History.mem_marked]
  · intro name id hid
    rw [addLocation, hid]

/-- The first species is at least 3. -/
def atLeastThree : Proposition := .armed ⟨0, .greaterEqual, 3⟩ "x >= 3" (by decide)

/-- Calls that build an automaton waiting for the first species to reach 3.
Two of them come too early and are refused, one names a location again, and
one hands over a transition with the ids of some other automaton. -/
def waitForThree : List BuilderCall :=
  [.setAccepting "done", .addLocation "wait", .addTransition (.unconditional "wait" "done"),
    .addLocation "done", .setInitial "wait", .setAccepting "done", .addLocation "done",
    .addTransition { Transition.unconditional "wait" "wait" with sourceId := 7, targetId := 9 },
    .addTransition ⟨"wait", "done", [atLeastThree], [], 0, 0⟩,
    .addTransition (.unconditional "done" "done")]

theorem waitForThree_follows_history :
    (History.names waitForThree).length ≤ UInt32.size ∧ (build waitForThree).Follows waitForThree := by
  have h : (History.names waitForThree).length ≤ UInt32.size := by decide
  exact ⟨h, build_follows_history waitForThree h⟩

end Automaton
end GridBuchi
