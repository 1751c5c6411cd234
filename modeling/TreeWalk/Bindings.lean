/-!
# Bindings of names

A finite map from names to values, as a list of pairs with distinct names in the
order in which they were first bound.
-/

namespace TreeWalk

/-- What names are bound to. -/
structure Bindings (α : Type) where
  entries : List (String × α) := []

namespace Bindings

variable {α : Type}

/-- No bindings. -/
def empty : Bindings α := ⟨[]⟩

/-- The value of a name in a list of pairs. -/
def getIn? (name : String) : List (String × α) -> Option α
  | [] => none
  | (other, value) :: rest => if other = name then some value else getIn? name rest

/-- What a name is bound to. -/
def get? (bindings : Bindings α) (name : String) : Option α :=
  getIn? name bindings.entries

/-- Whether a name is bound. -/
def contains (bindings : Bindings α) (name : String) : Bool :=
  (bindings.get? name).isSome

/-- Replace the value of a name in a list of pairs, or add it at the end. -/
def setIn (name : String) (value : α) : List (String × α) -> List (String × α)
  | [] => [(name, value)]
  | (other, old) :: rest =>
    if other = name then (name, value) :: rest else (other, old) :: setIn name value rest

/-- Bind a name, in place of what it was bound to before. -/
def set (bindings : Bindings α) (name : String) (value : α) : Bindings α :=
  ⟨setIn name value bindings.entries⟩

/-- The bound names. -/
def names (bindings : Bindings α) : List String :=
  bindings.entries.map (·.1)

@[simp] theorem get?_empty (name : String) : (empty : Bindings α).get? name = none := rfl

/-- A set name has the new value, every other name the one it had. -/
theorem getIn?_setIn
    (name other : String)
    (value : α)
    (entries : List (String × α)) :
    getIn? other (setIn name value entries) =
      if other = name then some value else getIn? other entries := by
  induction entries with
  | nil => simp [setIn, getIn?, eq_comm]
  | cons entry rest inductionHypothesis =>
    obtain ⟨first, old⟩ := entry
    by_cases here : first = name
    · by_cases same : other = name
      · simp [setIn, getIn?, here, same]
      · simp [setIn, getIn?, here, same, Ne.symm same]
    · by_cases same : other = name
      · simp [setIn, getIn?, here, same] at inductionHypothesis ⊢
        exact inductionHypothesis
      · simp [setIn, getIn?, here, same, inductionHypothesis]

/-- Binding a name changes what that name is bound to and nothing else. -/
theorem get?_set
    (bindings : Bindings α)
    (name other : String)
    (value : α) :
    (bindings.set name value).get? other =
      if other = name then some value else bindings.get? other :=
  getIn?_setIn name other value bindings.entries

@[simp] theorem get?_set_self
    (bindings : Bindings α)
    (name : String)
    (value : α) :
    (bindings.set name value).get? name = some value := by
  simp [get?_set]

end Bindings
end TreeWalk
