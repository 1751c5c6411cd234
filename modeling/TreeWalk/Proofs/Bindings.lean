import TreeWalk.Bindings

/-!
# Names of bindings

How binding a name changes which names are bound, and what holds of everything that
is bound.
-/

namespace TreeWalk

namespace Bindings

variable {α : Type}

/-- Binding a name twice is binding it the second time. -/
theorem set_set
    (bindings : Bindings α)
    (name : String)
    (value other : α) :
    (bindings.set name value).set name other = bindings.set name other := by
  have entries : ∀ entries : List (String × α),
      setIn name other (setIn name value entries) = setIn name other entries := by
    intro entries
    induction entries with
    | nil => simp [setIn]
    | cons entry rest inductionHypothesis =>
      by_cases here : entry.1 = name
      · simp [setIn, here]
      · simp [setIn, here, inductionHypothesis]
  exact congrArg Bindings.mk (entries bindings.entries)

@[simp] theorem contains_empty (name : String) : (empty : Bindings α).contains name = false := rfl

/-- Binding a name adds that name and no other. -/
theorem contains_set
    (bindings : Bindings α)
    (name other : String)
    (value : α) :
    (bindings.set name value).contains other = (other == name || bindings.contains other) := by
  by_cases same : other = name
  · simp [contains, same]
  · simp [contains, get?_set, same]

/-- The names are those that are bound. -/
theorem mem_names {bindings : Bindings α} {name : String} :
    name ∈ bindings.names ↔ bindings.contains name = true := by
  rw [names, contains, get?]
  induction bindings.entries with
  | nil => simp [getIn?]
  | cons entry rest inductionHypothesis =>
    rw [List.map_cons, List.mem_cons, inductionHypothesis, getIn?]
    by_cases here : entry.1 = name
    · simp [here]
    · simp [here, Ne.symm here]

/-- Bind the same values to other names. -/
def rename (bindings : Bindings α) (spell : String -> String) : Bindings α :=
  ⟨bindings.entries.map fun entry => (spell entry.1, entry.2)⟩

section Rename

variable
  {spell : String -> String}
  (injective : ∀ name other, spell name = spell other -> name = other)

include injective

/-- Under an injective renaming, a renamed name has the value the name had. -/
theorem get?_rename (bindings : Bindings α) (name : String) :
    (bindings.rename spell).get? (spell name) = bindings.get? name := by
  obtain ⟨entries⟩ := bindings
  unfold rename get?
  dsimp only
  induction entries with
  | nil => rfl
  | cons entry rest inductionHypothesis =>
    rw [List.map_cons, getIn?, getIn?, inductionHypothesis]
    by_cases here : entry.1 = name
    · rw [if_pos here, if_pos (congrArg spell here)]
    · rw [if_neg here, if_neg fun same => here (injective _ _ same)]

/-- Under an injective renaming, setting and renaming can be exchanged. -/
theorem set_rename (bindings : Bindings α) (name : String) (value : α) :
    (bindings.rename spell).set (spell name) value = (bindings.set name value).rename spell := by
  have entries : ∀ entries : List (String × α),
      setIn (spell name) value (entries.map fun entry => (spell entry.1, entry.2)) =
        (setIn name value entries).map fun entry => (spell entry.1, entry.2) := by
    intro entries
    induction entries with
    | nil => rfl
    | cons entry rest inductionHypothesis =>
      rw [List.map_cons, setIn, setIn, inductionHypothesis]
      by_cases here : entry.1 = name
      · rw [if_pos here, if_pos (congrArg spell here)]
        rfl
      · rw [if_neg here, if_neg fun same => here (injective _ _ same)]
        rfl
  exact congrArg Bindings.mk (entries bindings.entries)

end Rename

/-- Names that stay as they are. -/
theorem rename_id (bindings : Bindings α) : bindings.rename (fun name => name) = bindings := by
  obtain ⟨entries⟩ := bindings
  exact congrArg Bindings.mk (List.map_id entries)

/-- Something holds of every name and what it is bound to. -/
def All (holds : String -> α -> Prop) (bindings : Bindings α) : Prop :=
  ∀ name value, bindings.get? name = some value -> holds name value

section All

variable {holds : String -> α -> Prop} {bindings : Bindings α}

theorem all_empty : (empty : Bindings α).All holds :=
  nofun

/-- What holds of all bindings and of a new one holds behind setting it. -/
theorem All.set
    (all : bindings.All holds)
    {name : String}
    {value : α}
    (isNew : holds name value) :
    (bindings.set name value).All holds := by
  intro other bound isBound
  rw [get?_set] at isBound
  split at isBound
  · rename_i same
    cases isBound
    exact same ▸ isNew
  · exact all other bound isBound

/-- Names that are bound one after the other. -/
theorem All.foldl
    {β : Type}
    (all : bindings.All holds)
    (name : β -> String)
    (value : β -> α)
    {items : List β}
    (each : ∀ item ∈ items, holds (name item) (value item)) :
    (items.foldl (fun bindings item => bindings.set (name item) (value item)) bindings).All
      holds :=
  List.foldlRecOn items _ all fun _ all item member => all.set (each item member)

end All
end Bindings

end TreeWalk
