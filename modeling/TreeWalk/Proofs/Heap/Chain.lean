import TreeWalk.Machine
import TreeWalk.Proofs.Bindings

/-!
# Chains of scopes

Scopes are never removed from the heap, keep the scopes around them, and never
lose a name.  `Chained` describes the scopes from a place outwards to the
globals, each with what is known of it, so that what is known of a chain lasts
while the heap grows.
-/

namespace TreeWalk
namespace Heap

/-- The scopes of one heap are still there in another one, around the same scopes
and with at least the same names. -/
structure Grows (before after : Heap) : Prop where
  size : before.scopes.size ≤ after.scopes.size
  enclosing : ∀ place : ScopeRef, place.index < before.scopes.size ->
    (after.scope place).enclosing = (before.scope place).enclosing
  names : ∀ (place : ScopeRef) (name : String), place.index < before.scopes.size ->
    (before.scope place).bindings.contains name = true ->
      (after.scope place).bindings.contains name = true

namespace Grows

theorem refl (heap : Heap) : Grows heap heap :=
  ⟨Nat.le_refl _, fun _ _ => rfl, fun _ _ _ => id⟩

theorem trans
    {before middle after : Heap}
    (one : Grows before middle)
    (other : Grows middle after) :
    Grows before after := by
  refine ⟨Nat.le_trans one.size other.size, fun place made => ?_, fun place name made bound => ?_⟩
  · have stillMade := Nat.lt_of_lt_of_le made one.size
    rw [other.enclosing place stillMade, one.enclosing place made]
  · have stillMade := Nat.lt_of_lt_of_le made one.size
    exact other.names place name stillMade (one.names place name made bound)

/-- A heap with the same scopes is grown as far. -/
theorem of_scopes_eq
    {before after : Heap}
    (same : after.scopes = before.scopes) :
    Grows before after := by
  have scope : ∀ place, after.scope place = before.scope place := by
    intro place
    rw [Heap.scope, same]
    rfl
  refine ⟨?_, fun place _ => ?_, fun place name _ bound => ?_⟩
  · exact Nat.le_of_eq (congrArg Array.size same.symm)
  · rw [scope]
  · rw [scope]
    exact bound

end Grows

/-- A new scope leaves the links of those before it. -/
theorem grows_newScope
    (heap : Heap)
    (enclosing : Option ScopeRef)
    (bindings : Bindings Value) :
    Grows heap (heap.newScope enclosing bindings).2 := by
  refine ⟨?_, fun place made => ?_, fun place name made bound => ?_⟩
  · simp [newScope]
  · rw [scope_newScope_of_lt heap enclosing bindings made]
  · rw [scope_newScope_of_lt heap enclosing bindings made]
    exact bound

theorem size_define
    (heap : Heap)
    (place : ScopeRef)
    (name : String)
    (value : Value) :
    (heap.define place name value).scopes.size = heap.scopes.size := by
  simp [define]

/-- Binding a name in a scope adds that name to the scope. -/
theorem contains_define_self
    (heap : Heap)
    {place : ScopeRef}
    (made : place.index < heap.scopes.size)
    (name other : String)
    (value : Value) :
    ((heap.define place name value).scope place).bindings.contains other =
      (other == name || (heap.scope place).bindings.contains other) := by
  rw [bindings_define_self heap place name value made, Bindings.contains_set]

/-- Binding a name leaves the links of every scope. -/
theorem grows_define
    (heap : Heap)
    (place : ScopeRef)
    (name : String)
    (value : Value) :
    Grows heap (heap.define place name value) := by
  refine ⟨Nat.le_of_eq (size_define heap place name value).symm, fun other _ => ?_,
    fun other known made bound => ?_⟩
  · exact enclosing_define heap place other name value
  · by_cases same : other = place
    · subst same
      rw [contains_define_self heap made, bound, Bool.or_true]
    · rw [scope_define_of_ne heap name value same]
      exact bound

/-- From a place outwards up to the globals, there is one scope for each label,
and it has what the label says. -/
inductive Chained
    {α : Type}
    (heap : Heap)
    (globals : ScopeRef)
    (labelled : ScopeRef -> α -> Prop) : ScopeRef -> List α -> Prop
  | outermost : Chained heap globals labelled globals []
  | inside
      {place outer : ScopeRef}
      {label : α}
      {labels : List α}
      (made : place.index < heap.scopes.size)
      (encloses : (heap.scope place).enclosing = some outer)
      (earlier : outer.index < place.index)
      (holds : labelled place label)
      (around : Chained heap globals labelled outer labels) :
      Chained heap globals labelled place (label :: labels)

namespace Chained

variable
  {α : Type}
  {heap : Heap}
  {globals place : ScopeRef}
  {labelled : ScopeRef -> α -> Prop}
  {labels : List α}

/-- A chain lasts while the heap grows, if what its labels say does. -/
theorem grow
    {after : Heap}
    {lasting : ScopeRef -> α -> Prop}
    (chained : Chained heap globals labelled place labels)
    (grows : Grows heap after)
    (lasts : ∀ place label, place.index < heap.scopes.size ->
      labelled place label -> lasting place label) :
    Chained after globals lasting place labels := by
  induction chained with
  | outermost => exact .outermost
  | inside made encloses earlier holds _ inductionHypothesis =>
    exact .inside (Nat.lt_of_lt_of_le made grows.size) ((grows.enclosing _ made).trans encloses)
      earlier (lasts _ _ made holds) inductionHypothesis

/-- A chained scope exists. -/
theorem made
    (chained : Chained heap globals labelled place labels)
    (globalsMade : globals.index < heap.scopes.size) :
    place.index < heap.scopes.size := by
  cases chained with
  | outermost => exact globalsMade
  | inside made => exact made

/-- Each labelled scope lies behind the one around it. -/
theorem globals_le (chained : Chained heap globals labelled place labels) :
    globals.index + labels.length ≤ place.index := by
  induction chained with
  | outermost => exact Nat.le_refl _
  | inside made encloses earlier holds around inductionHypothesis =>
    rw [List.length_cons]
    omega

/-- The scope at a distance within the chain is the one that the label there is
about, and it is not the global one. -/
theorem ancestor
    (chained : Chained heap globals labelled place labels)
    {distance : Nat}
    {label : α}
    (found : labels[distance]? = some label) :
    labelled (heap.ancestor place distance) label ∧
      (heap.ancestor place distance).index < heap.scopes.size ∧
      heap.ancestor place distance ≠ globals := by
  induction chained generalizing distance with
  | outermost => simp at found
  | @inside place outer first rest made encloses earlier holds around inductionHypothesis =>
    cases distance with
    | zero =>
      rw [List.getElem?_cons_zero, Option.some_inj] at found
      subst found
      refine ⟨holds, made, fun same => ?_⟩
      have bound := around.globals_le
      have equal : place = globals := same
      rw [equal] at earlier
      omega
    | succ distance =>
      rw [List.getElem?_cons_succ] at found
      rw [Heap.ancestor, encloses]
      exact inductionHypothesis found

/-- Beyond the chain, every distance leads to the globals. -/
theorem ancestor_of_le
    (chained : Chained heap globals labelled place labels)
    (outermost : (heap.scope globals).enclosing = none)
    {distance : Nat}
    (beyond : labels.length ≤ distance) :
    heap.ancestor place distance = globals := by
  induction chained generalizing distance with
  | outermost =>
    cases distance with
    | zero => rfl
    | succ distance => rw [Heap.ancestor, outermost]
  | inside made encloses earlier holds around inductionHypothesis =>
    cases distance with
    | zero => simp at beyond
    | succ distance =>
      rw [List.length_cons] at beyond
      rw [Heap.ancestor, encloses]
      exact inductionHypothesis (by omega)

/-- Distances within the chain lead to the same scopes while the heap grows. -/
theorem ancestor_grow
    {after : Heap}
    (chained : Chained heap globals labelled place labels)
    (grows : Grows heap after)
    {distance : Nat}
    (inside : distance < labels.length) :
    after.ancestor place distance = heap.ancestor place distance := by
  induction chained generalizing distance with
  | outermost => simp at inside
  | inside made encloses earlier holds around inductionHypothesis =>
    cases distance with
    | zero => rfl
    | succ distance =>
      rw [Heap.ancestor, Heap.ancestor, grows.enclosing _ made, encloses]
      exact inductionHypothesis (Nat.lt_of_succ_lt_succ inside)

/-- The chain of a chained scope has one ancestor for each label and ends with the table
of names. -/
theorem chainUpTo_eq
    (chained : Chained heap globals labelled place labels)
    (outermost : (heap.scope globals).enclosing = none)
    {count : Nat}
    (enough : labels.length < count) :
    ∃ places, heap.chainUpTo count place = places ++ [globals] ∧
      places.length = labels.length ∧
      ∀ distance, distance < labels.length ->
        places[distance]? = some (heap.ancestor place distance) := by
  induction chained generalizing count with
  | outermost =>
    obtain ⟨rest, rfl⟩ := Nat.exists_eq_add_one.mpr enough
    refine ⟨[], ?_, rfl, by simp⟩
    rw [chainUpTo, outermost]
    rfl
  | @inside place outer label labels made encloses earlier holds around inductionHypothesis =>
    rw [List.length_cons] at enough
    obtain ⟨rest, rfl⟩ := Nat.exists_eq_add_one.mpr (Nat.zero_lt_of_lt enough)
    obtain ⟨places, chain, length, positions⟩ :=
      inductionHypothesis (Nat.lt_of_succ_lt_succ enough)
    refine ⟨place :: places, ?_, by simp [length], fun distance inside => ?_⟩
    · rw [chainUpTo, encloses]
      simp [chain]
    · cases distance with
      | zero => rfl
      | succ distance =>
        rw [List.getElem?_cons_succ, Heap.ancestor, encloses]
        exact positions distance (Nat.lt_of_succ_lt_succ inside)

/-- The chain of a scope consists of one scope for each label, and the globals. -/
theorem chain_eq
    (chained : Chained heap globals labelled place labels)
    (outermost : (heap.scope globals).enclosing = none) :
    ∃ places, heap.chain place = places ++ [globals] ∧ places.length = labels.length ∧
      ∀ distance, distance < labels.length ->
        places[distance]? = some (heap.ancestor place distance) := by
  have enough := chained.globals_le
  exact chained.chainUpTo_eq outermost (by omega)

end Chained

/-- The chain of an outermost scope is that scope alone. -/
theorem chain_outermost
    {heap : Heap}
    {place : ScopeRef}
    (outermost : (heap.scope place).enclosing = none) :
    heap.chain place = [place] := by
  rw [chain, chainUpTo, outermost]

/-- A name is found in the innermost scope that binds it. -/
theorem binder?_innermost
    {heap : Heap}
    {place : ScopeRef}
    {name : String}
    (bound : (heap.scope place).bindings.contains name = true) :
    heap.binder? place name = some place := by
  unfold binder? chain
  rw [chainUpTo, List.find?_cons, bound]

/-- A scope that a name is found in binds the name. -/
theorem contains_of_binder?
    {heap : Heap}
    {place binder : ScopeRef}
    {name : String}
    (found : heap.binder? place name = some binder) :
    (heap.scope binder).bindings.contains name = true := by
  have holds := List.find?_some found
  exact holds

end Heap
end TreeWalk
