/-!
Finite maps from names, kept in increasing order of the names.
-/

namespace LineShell

structure NameMap (α : Type) where
  entries : List (String × α)

namespace NameMap

variable {α : Type}

def empty : NameMap α := ⟨[]⟩

def insertInto (name : String) (item : α) : List (String × α) → List (String × α)
  | [] => [(name, item)]
  | (other, old) :: rest =>
    if name < other then (name, item) :: (other, old) :: rest
    else if name = other then (name, item) :: rest
    else (other, old) :: insertInto name item rest

/-- Binds a name, in place of what it was bound to before. -/
def insert (map : NameMap α) (name : String) (item : α) : NameMap α :=
  ⟨insertInto name item map.entries⟩

/-- The item whose place a name takes when it is bound. -/
def displaced (name : String) : List (String × α) → Option α
  | [] => none
  | (other, old) :: rest =>
    if name < other then none
    else if name = other then some old
    else displaced name rest

/-- Binds a name, and gives what it was bound to before. -/
def exchange (map : NameMap α) (name : String) (item : α) : Option α × NameMap α :=
  (displaced name map.entries, map.insert name item)

def get? (map : NameMap α) (name : String) : Option α := map.entries.lookup name

def names (map : NameMap α) : List String := map.entries.map Prod.fst

@[simp] theorem get?_empty (name : String) : (empty : NameMap α).get? name = none := rfl

theorem lookup_insertInto (name other : String) (item : α) (entries : List (String × α)) :
    (insertInto name item entries).lookup other =
      if other = name then some item else entries.lookup other := by
  induction entries with
  | nil =>
    by_cases same : other = name
    · simp [insertInto, same]
    · rw [insertInto, List.lookup_cons, beq_eq_false_iff_ne.2 same, if_neg same]
  | cons entry rest ih =>
    obtain ⟨first, old⟩ := entry
    by_cases same : other = name
    · subst same
      simp only [insertInto, if_true]
      split
      · simp
      · split
        · simp
        · rename_i distinct
          rw [List.lookup_cons, ih, if_pos rfl, beq_eq_false_iff_ne.2 distinct]
    · simp only [insertInto, if_neg same]
      split
      · rw [List.lookup_cons, beq_eq_false_iff_ne.2 same]
      · split
        · rename_i equal
          subst equal
          rw [List.lookup_cons, List.lookup_cons, beq_eq_false_iff_ne.2 same]
        · rw [List.lookup_cons, List.lookup_cons, ih, if_neg same]

/-- The last item given to a name is the one it has. -/
theorem get?_insert (map : NameMap α) (name other : String) (item : α) :
    (map.insert name item).get? other = if other = name then some item else map.get? other :=
  lookup_insertInto name other item map.entries

end NameMap
end LineShell
