/-
# `GridBuchi.Session.Slots` — values under names

A session keeps its values in slots: finitely many names, each with a value.
Filling a slot replaces what it held and touches no other.
-/

namespace GridBuchi

/-- Named values, each name at most once. -/
structure Slots (α : Type) where
  entries : List (String × α)

namespace Slots

variable {α : Type}

def empty : Slots α := ⟨[]⟩

/-- The value under a name. -/
def get? (s : Slots α) (name : String) : Option α := s.entries.lookup name

/-- Fills a slot, new or old. -/
def put (s : Slots α) (name : String) (a : α) : Slots α :=
  ⟨(name, a) :: s.entries.filter (fun e => e.1 != name)⟩

/-- Dropping one name leaves the values under all others. -/
theorem lookup_filter_ne (entries : List (String × α)) {name other : String} (h : other ≠ name) :
    (entries.filter (fun e => e.1 != name)).lookup other = entries.lookup other := by
  induction entries with
  | nil => rfl
  | cons e rest ih =>
      by_cases he : e.1 = name
      · have hoe : (other == e.1) = false := by simpa [he] using h
        rw [List.filter_cons_of_neg (by simpa using he), ih, List.lookup_cons, hoe]
      · rw [List.filter_cons_of_pos (by simpa using he), List.lookup_cons, List.lookup_cons, ih]

theorem get?_put (s : Slots α) (name other : String) (a : α) :
    (s.put name a).get? other = if other = name then some a else s.get? other := by
  by_cases h : other = name
  · simp [get?, put, h]
  · have hn : (other == name) = false := by simpa using h
    rw [if_neg h, get?, put, List.lookup_cons, hn]
    exact lookup_filter_ne s.entries h

end Slots
end GridBuchi
