/-!
# Maps from names

A map is the list of its bindings in increasing order of names. Names are compared by code
point, so walking the list is walking the names in order.
-/

namespace MiniShell

/-- Bindings of names to values. Those that `insert` builds are in order of names. -/
abbrev NameMap (α : Type) := List (String × α)

namespace NameMap

variable {α : Type}

def find? (name : String) : NameMap α → Option α
  | [] => none
  | (other, value) :: rest => if other = name then some value else find? name rest

/-- Binds a name, in place of the binding it had, or else before the first greater name. -/
def insert (name : String) (value : α) : NameMap α → NameMap α
  | [] => [(name, value)]
  | (other, old) :: rest =>
    if other = name then (name, value) :: rest
    else if name < other then (name, value) :: (other, old) :: rest
    else (other, old) :: insert name value rest

theorem find?_insert_self (name : String) (value : α) (entries : NameMap α) :
    find? name (insert name value entries) = some value := by
  induction entries with
  | nil => simp [insert, find?]
  | cons entry rest ih =>
    obtain ⟨other, old⟩ := entry
    by_cases same : other = name
    · simp [insert, find?, same]
    · by_cases before : name < other
      · simp [insert, find?, same, before]
      · simp [insert, find?, same, before, ih]

theorem find?_insert_of_ne {name wanted : String} (h : wanted ≠ name) (value : α)
    (entries : NameMap α) : find? wanted (insert name value entries) = find? wanted entries := by
  induction entries with
  | nil => simp [insert, find?, h.symm]
  | cons entry rest ih =>
    obtain ⟨other, old⟩ := entry
    by_cases same : other = name
    · simp [insert, find?, same, h.symm]
    · by_cases before : name < other
      · simp [insert, find?, same, before, h.symm]
      · simp [insert, find?, same, before, ih]

end NameMap

end MiniShell
