/-!
Maps from names to values that keep the order in which names first came.
-/

namespace WidgetDsl

abbrev Entries (α : Type) := List (String × α)

namespace Entries

variable {α : Type}

def get? (entries : Entries α) (name : String) : Option α :=
  entries.lookup name

def keys (entries : Entries α) : List String :=
  entries.map (·.1)

def contains (entries : Entries α) (name : String) : Bool :=
  (entries.get? name).isSome

/-- A name already there keeps its place and gets the new value; any other goes to the end. -/
def insert : Entries α → String → α → Entries α
  | [], name, value => [(name, value)]
  | (key, old) :: rest, name, value =>
    if key = name then (key, value) :: rest else (key, old) :: insert rest name value

theorem get?_insert (entries : Entries α) (name other : String) (value : α) :
    (entries.insert name value).get? other =
      if other = name then some value else entries.get? other := by
  induction entries with
  | nil =>
    by_cases same : other = name
    · simp [insert, get?, same]
    · simp [insert, get?, List.lookup_cons, same, beq_false_of_ne same]
  | cons entry rest ih =>
    obtain ⟨key, old⟩ := entry
    simp only [get?] at ih ⊢
    by_cases found : key = name
    · subst found
      by_cases same : other = key
      · simp [insert, same]
      · simp [insert, List.lookup_cons, same, beq_false_of_ne same]
    · rw [insert, if_neg found]
      by_cases same : other = key
      · subst same
        simp [found]
      · simp [List.lookup_cons, beq_false_of_ne same, ih]

theorem keys_insert (entries : Entries α) (name : String) (value : α) :
    (entries.insert name value).keys =
      if name ∈ entries.keys then entries.keys else entries.keys ++ [name] := by
  induction entries with
  | nil => simp [insert, keys]
  | cons entry rest ih =>
    obtain ⟨key, old⟩ := entry
    simp only [keys] at ih
    by_cases found : key = name
    · simp [insert, keys, found]
    · have other : ¬ name = key := fun same => found same.symm
      by_cases later : name ∈ rest.map (·.1)
      · simp [insert, keys, found, later, ih]
      · simp [insert, keys, found, other, later, ih]

def update (entries added : Entries α) : Entries α :=
  added.foldl (fun result entry => result.insert entry.1 entry.2) entries

def ofList (pairs : List (String × α)) : Entries α :=
  update [] pairs

end Entries

end WidgetDsl
