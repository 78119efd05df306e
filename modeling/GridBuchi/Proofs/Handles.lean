/-
# `GridBuchi.Proofs.Handles` — a registry is an index of what it was told

A registry is reached through a handle, and a handle can be copied at any
time.  From then on the two go their own ways: what one is told the other
does not hear of.  So each handle has a history of its own, which is that of
the handle it was copied from, as far as it went, and then what it was told
itself.  `history` reads it off the commands, and looks at no registry.

The registry is determined by that history.  Its names are the different
names of the history, in order of first occurrence, and the id of a name is
its rank there, as far as 32 bits go.  The way from an id to a name and back
never fails.  The way from a name to an id and back fails for the first name
whose id has wrapped, and there is such a name exactly if there are more than
`2 ^ 32`.
-/
import GridBuchi.Proofs.Sessions

namespace GridBuchi

namespace Registry

/-! ## The registry of a history -/

theorem ofNames_concat (history : List String) (name : String) :
    ofNames (history ++ [name]) = ((ofNames history).register name).2 := by
  rw [ofNames, registerAll, List.foldl_append]
  rfl

theorem names_ofNames (history : List String) : (ofNames history).names = history.eraseDups := by
  induction history using List.reverseRecOn with
  | nil => rfl
  | append_singleton history name ih =>
      rw [ofNames_concat, names_register, ih, Names.eraseDups_concat]
      simp only [List.mem_eraseDups]

theorem nodup_ofNames (history : List String) : (ofNames history).names.Nodup := by
  induction history using List.reverseRecOn with
  | nil => exact List.nodup_nil
  | append_singleton history name ih =>
      rw [ofNames_concat]
      exact nodup_register ih name

theorem mem_names_ofNames {history : List String} {name : String} :
    name ∈ (ofNames history).names ↔ name ∈ history := by
  rw [names_ofNames, List.mem_eraseDups]

/-- The registry is the index of a history of names. -/
structure Indexes (r : Registry) (history : List String) : Prop where
  /-- Its names are the different names of the history, each where it first
  occurred. -/
  names : r.names = history.eraseDups
  /-- The id of a name is its rank, up to the width of ids, and registering
  it again gives the same id and changes nothing. -/
  known : ∀ (rank : Nat) (name : String), history.eraseDups[rank]? = some name →
    ∃ id, r.id? name = some id ∧ r.register name = (id, r) ∧ id.toNat = rank % UInt32.size
  /-- Any other name has no id; if it is registered it gets the next one. -/
  unknown : ∀ name ∉ history, r.id? name = none ∧
    (r.register name).1.toNat = history.eraseDups.length % UInt32.size
  /-- The name of an id is the one at that place. -/
  name : ∀ id, r.name? id = history.eraseDups[id.toNat]?
  /-- All names are listed, each with its place up to the width of ids. -/
  entries : ∀ i : Nat, (r.entries[i]?).map (fun e => (e.1.toNat, e.2)) =
    (history.eraseDups[i]?).map fun name => (i % UInt32.size, name)
  /-- An id that has a name is the id of that name. -/
  id_of_name : ∀ id : SpeciesId, id.toNat < r.size →
    ∃ name, r.name? id = some name ∧ r.id? name = some id
  /-- A name that has an id is the name of that id, for all names or for none
  too many. -/
  name_of_id : (∀ name ∈ history, ∃ id, r.id? name = some id ∧ r.name? id = some name) ↔
    history.eraseDups.length ≤ UInt32.size

theorem register_of_id? {r : Registry} {name : String} {id : SpeciesId} (h : r.id? name = some id) :
    r.register name = (id, r) := by
  rw [register, h]

theorem indexes_ofNames (history : List String) : (ofNames history).Indexes history := by
  have hnames := names_ofNames history
  have hnodup := nodup_ofNames history
  refine ⟨hnames, ?_, ?_, ?_, ?_, ?_, ?_⟩
  · intro rank name h
    rw [← hnames] at h
    obtain ⟨hlt, rfl⟩ := List.getElem?_eq_some_iff.mp h
    have hid : (ofNames history).id? (ofNames history).names[rank] = some (Names.idAt rank) :=
      Names.id?_eq_some_iff.mpr ⟨rank, Names.idxOf?_getElem hnodup hlt, rfl⟩
    exact ⟨_, hid, register_of_id? hid, Names.toNat_idAt rank⟩
  · intro name h
    have hid : (ofNames history).id? name = none := by
      rw [id?, Names.id?_eq_none_iff, mem_names_ofNames]
      exact h
    refine ⟨hid, ?_⟩
    rw [register, hid, ← hnames]
    exact Names.toNat_idAt _
  · intro id
    rw [name?, Names.nameAt?, hnames]
  · intro i
    rw [entries, List.getElem?_mapIdx, hnames]
    cases history.eraseDups[i]? with
    | none => rfl
    | some name => exact congrArg (fun n => some (n, name)) (Names.toNat_idAt i)
  · intro id h
    have hname : (ofNames history).name? id = some (ofNames history).names[id.toNat] :=
      List.getElem?_eq_getElem h
    exact ⟨_, hname, Names.id?_of_nameAt? hnodup hname⟩
  · rw [← hnames, ← Names.found_again_iff hnodup]
    simp only [mem_names_ofNames]
    rfl

/-- `r'` gives every name the id that `r` gives it, and every id the name. -/
structure Extends (r' r : Registry) : Prop where
  id? {name : String} {id : SpeciesId} : r.id? name = some id → r'.id? name = some id
  name? {name : String} {id : SpeciesId} : r.name? id = some name → r'.name? id = some name

theorem extends_ofNames_append (history more : List String) :
    (ofNames (history ++ more)).Extends (ofNames history) := by
  have hnames : (ofNames (history ++ more)).names =
      (ofNames history).names ++ (more.removeAll history).eraseDups := by
    rw [names_ofNames, names_ofNames, List.eraseDups_append]
  constructor
  · intro name id h
    rw [Registry.id?, hnames]
    exact Names.id?_append h _
  · intro name id h
    rw [Registry.name?, Names.nameAt?] at h ⊢
    rw [hnames, List.getElem?_append_left (List.getElem?_eq_some_iff.mp h).1]
    exact h

end Registry

/-! ## What each handle has been told -/

/-- What the handle in a slot has been told after a command, from what all
handles had been told before it. -/
def Command.tell (told : String → Option (List String)) (c : Command) (slot : String) :
    Option (List String) :=
  match c with
  | .registry (.create name species) => if slot = name then some species else told slot
  | .registry (.copy source name) =>
      if slot = name then (told source).or (told slot) else told slot
  | .registry (.register name species) =>
      if slot = name then (told slot).map (· ++ [species]) else told slot
  | _ => told slot

/-- What the handle in a slot has been told by a list of commands: its own
history. -/
def Handle.history (commands : List Command) : String → Option (List String) :=
  commands.foldl Command.tell fun _ => none

/-- The command gives the slot another handle. -/
def Command.Replaces (slot : String) : Command → Prop
  | .registry (.create name _) | .registry (.copy _ name) => name = slot
  | _ => False

open SessionM

variable {σ : Session} {told : String → Option (List String)}

/-- Every handle has the registry of what it has been told. -/
def FollowsHandles (σ : Session) (told : String → Option (List String)) : Prop :=
  ∀ slot, σ.registries.get? slot = (told slot).map Registry.ofNames

theorem FollowsHandles.of_writes (h : FollowsHandles σ told) {c : Command}
    (hc : Part.registries ∉ c.writes) (htell : c.tell told = told) :
    FollowsHandles (σ.step c).2 (c.tell told) := by
  have hkept : (after c.run σ).registries = σ.registries := c.get_after hc σ
  intro slot
  rw [Session.step_eq, hkept, htell]
  exact h slot

/-- One command keeps the registries in step with what they are told. -/
theorem FollowsHandles.step (h : FollowsHandles σ told) (c : Command) :
    FollowsHandles (σ.step c).2 (c.tell told) := by
  cases c with
  | comparison c | proposition c | state c | transition c | automaton c =>
      exact h.of_writes (by cases c <;> simp [Command.writes]) rfl
  | showConfig _ | takeEvents => exact h.of_writes (by simp [Command.writes]) rfl
  | registry c =>
      cases c with
      | id? _ _ | name? _ _ | inspect _ => exact h.of_writes (by simp [Command.writes]) rfl
      | create name species =>
          intro slot
          show (σ.registries.put name (Registry.ofNames species)).get? slot =
            (if slot = name then some species else told slot).map Registry.ofNames
          rw [Slots.get?_put, h slot]
          split <;> rfl
      | copy source name =>
          intro slot
          show _ = (if slot = name then (told source).or (told slot) else told slot).map
            Registry.ofNames
          rw [Session.step_eq, Command.run, RegistryCommand.run, after_bind, answer_slot,
            after_slot, h source]
          cases told source with
          | none => simpa using h slot
          | some history =>
              show (σ.registries.put name (Registry.ofNames history)).get? slot = _
              rw [Slots.get?_put, h slot]
              split <;> rfl
      | register name species =>
          intro slot
          show _ = (if slot = name then (told slot).map (· ++ [species]) else told slot).map
            Registry.ofNames
          rw [Session.step_eq, Command.run, RegistryCommand.run, after_bind, answer_slot,
            after_slot, h name]
          cases hname : told name with
          | none =>
              show σ.registries.get? slot = _
              rw [h slot]
              split
              · next hs => rw [hs, hname]; rfl
              · rfl
          | some history =>
              show (σ.registries.put name ((Registry.ofNames history).register species).2).get? slot
                = _
              rw [Slots.get?_put, h slot, ← Registry.ofNames_concat]
              split
              · next hs => rw [hs, hname]; rfl
              · rfl

theorem FollowsHandles.run (h : FollowsHandles σ told) (commands : List Command) :
    FollowsHandles (σ.run commands).2 (commands.foldl Command.tell told) := by
  induction commands generalizing σ told with
  | nil => exact h
  | cons c rest ih => exact ih (h.step c)

theorem followsHandles_reached (commands : List Command) :
    FollowsHandles (Session.reached commands) (Handle.history commands) := by
  refine FollowsHandles.run ?_ commands
  intro slot
  rfl

/-- What a handle is told later comes behind what it has been told. -/
theorem tell_of_not_replaces {slot : String} {history : List String} (h : told slot = some history)
    {c : Command} (hc : ¬c.Replaces slot) : ∃ more, c.tell told slot = some (history ++ more) := by
  have hsame : c.tell told slot = told slot →
      ∃ more, c.tell told slot = some (history ++ more) := by
    intro he
    exact ⟨[], by rw [he, h, List.append_nil]⟩
  cases c with
  | registry c =>
      cases c with
      | create name species => exact hsame (if_neg fun he => hc he.symm)
      | copy source name => exact hsame (if_neg fun he => hc he.symm)
      | register name species =>
          by_cases hs : slot = name
          · refine ⟨[species], ?_⟩
            show (if slot = name then (told slot).map (· ++ [species]) else told slot) = _
            rw [if_pos hs, h]
            rfl
          · exact hsame (if_neg hs)
      | id? _ _ | name? _ _ | inspect _ => exact hsame rfl
  | comparison _ | proposition _ | state _ | transition _ | automaton _ => exact hsame rfl
  | showConfig _ | takeEvents => exact hsame rfl

theorem foldl_tell_of_not_replaces {slot : String} {history : List String}
    (h : told slot = some history) {commands : List Command}
    (hc : ∀ c ∈ commands, ¬c.Replaces slot) :
    ∃ more, commands.foldl Command.tell told slot = some (history ++ more) := by
  induction commands generalizing told history with
  | nil => exact ⟨[], by rw [List.foldl_nil, h, List.append_nil]⟩
  | cons c rest ih =>
      obtain ⟨more, hmore⟩ := tell_of_not_replaces h (hc c List.mem_cons_self)
      obtain ⟨last, hlast⟩ := ih hmore fun d hd => hc d (List.mem_cons_of_mem _ hd)
      exact ⟨more ++ last, by rw [List.foldl_cons, hlast, List.append_assoc]⟩

/-! ## Registries and their histories -/

/-- After any commands, on whatever handles and in whatever order, a slot has
a handle exactly if it has a history, and the registry of the handle is the
index of that history.  Later commands change no id and no name it has given,
unless they put another handle in its slot. -/
theorem registries_index_history (commands : List Command) (slot : String) :
    ((Session.reached commands).registries.get? slot).isSome =
        (Handle.history commands slot).isSome ∧
      ∀ history, Handle.history commands slot = some history →
        ∃ r, (Session.reached commands).registries.get? slot = some r ∧ r.Indexes history ∧
          ∀ later : List Command, (∀ c ∈ later, ¬c.Replaces slot) →
            ∃ r', (Session.reached (commands ++ later)).registries.get? slot = some r' ∧
              r'.Extends r := by
  have hslot := followsHandles_reached commands slot
  refine ⟨by rw [hslot, Option.isSome_map], ?_⟩
  intro history hhistory
  rw [hhistory] at hslot
  refine ⟨Registry.ofNames history, hslot, Registry.indexes_ofNames history, ?_⟩
  intro later hlater
  obtain ⟨more, hmore⟩ := foldl_tell_of_not_replaces hhistory hlater
  refine ⟨Registry.ofNames (history ++ more), ?_, Registry.extends_ofNames_append history more⟩
  rw [followsHandles_reached, Handle.history, List.foldl_append]
  exact congrArg (Option.map Registry.ofNames) hmore

/-- A handle is copied, and then either is told something else.  One command
names a handle that was never made. -/
def twoHandles : List Command :=
  [.registry (.create "first" ["x", "y", "x"]), .registry (.copy "first" "second"),
    .registry (.register "second" "z"), .registry (.register "first" "w"),
    .registry (.register "third" "v"), .registry (.register "second" "x")]

theorem copied_handle_indexes_history :
    Handle.history twoHandles "second" = some ["x", "y", "x", "z", "x"] ∧
      ∃ r, (Session.reached twoHandles).registries.get? "second" = some r ∧
        r.Indexes ["x", "y", "x", "z", "x"] ∧ r.names = ["x", "y", "z"] ∧
        ∃ r', (Session.reached (twoHandles ++ [.registry (.register "second" "u"),
          .registry (.copy "second" "first")])).registries.get? "second" = some r' ∧
            r'.Extends r := by
  have hhistory : Handle.history twoHandles "second" = some ["x", "y", "x", "z", "x"] := rfl
  have hlater : ∀ c ∈ [Command.registry (.register "second" "u"),
      .registry (.copy "second" "first")], ¬c.Replaces "second" := by
    simp [Command.Replaces]
  obtain ⟨r, hr, hindex, hkept⟩ := (registries_index_history twoHandles "second").2 _ hhistory
  exact ⟨hhistory, r, hr, hindex, hindex.names, hkept _ hlater⟩

end GridBuchi
