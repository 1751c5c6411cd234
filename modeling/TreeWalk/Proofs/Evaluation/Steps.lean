import TreeWalk.Proofs.Evaluation.Faithful

/-!
# Steps of evaluation on a faithful machine

A machine is located at a site when its current scope agrees with the walk there.
No step of evaluation on the heap harms a faithful machine: scopes and instances may be
added, names be bound and fields be set, and a function or a class may be made whose
code comes from a site that the machine is located at.
-/

namespace TreeWalk

open Resolution

/-- The current scope of a faithful machine agrees with the walk at a charted
site. -/
structure Located (roots : List Site) (machine : Machine) (site : Site) : Prop where
  faithful : machine.Faithful roots
  charted : Charted roots machine.distances site
  agrees : machine.heap.Agrees machine.globals machine.scope site.walk.scopes

section Steps

variable {roots : List Site} {machine : Machine} {site : Site}

namespace Located

/-- Go to a child in the same scopes. -/
theorem child
    {inner : Site}
    (located : Located roots machine site)
    (isChild : inner ∈ site.children)
    (scopes : inner.walk.scopes = site.walk.scopes) :
    Located roots machine inner := by
  refine ⟨located.faithful, located.charted.child isChild, ?_⟩
  rw [scopes]
  exact located.agrees

/-- Go from an expression to one of its parts. -/
theorem inExpression
    {inner : Site}
    (located : Located roots machine site)
    (isExpression : site.part.isExpression = true)
    (isChild : inner ∈ site.children) :
    Located roots machine inner :=
  located.child isChild (Site.scopes_inExpressions isExpression isChild).2

end Located

/-- Putting a function on the heap. -/
theorem faithful_newFunction
    {closure : Closure}
    (faithful : machine.Faithful roots)
    (placed : closure.Placed roots machine []) :
    Machine.Faithful roots { machine with heap := (machine.heap.newFunction closure).2 } := by
  have grows : Heap.Grows machine.heap (machine.heap.newFunction closure).2 :=
    .of_scopes_eq rfl
  refine faithful.advance grows rfl rfl (fun place found isFunction => ?_) (fun _ _ => .inl)
  simp only [Heap.function?, Heap.newFunction, Array.getElem?_push] at isFunction
  split at isFunction
  · cases isFunction
    exact .inr (placed.advance grows rfl rfl)
  · exact .inl isFunction

/-- Putting a class on the heap. -/
theorem faithful_newClass
    {made : Class}
    (faithful : machine.Faithful roots)
    (placed : ∀ table ∈ made.lineage, ∀ (name : String) (method : Closure),
      table.get? name = some method -> method.Placed roots machine [receiverScope]) :
    Machine.Faithful roots { machine with heap := (machine.heap.newClass made).2 } := by
  have grows : Heap.Grows machine.heap (machine.heap.newClass made).2 := .of_scopes_eq rfl
  refine faithful.advance grows rfl rfl (fun _ _ => .inl) fun place found isClass => ?_
  simp only [Heap.class?, Heap.newClass, Array.getElem?_push] at isClass
  split at isClass
  · cases isClass
    refine .inr fun table member name method isMethod => ?_
    exact (placed table member name method isMethod).advance grows rfl rfl
  · exact .inl isClass

/-- Making a scope. -/
theorem faithful_newScope
    (enclosing : Option ScopeRef)
    (bindings : Bindings Value)
    (faithful : machine.Faithful roots) :
    Machine.Faithful roots
      { machine with heap := (machine.heap.newScope enclosing bindings).2 } :=
  faithful.advance (Heap.grows_newScope machine.heap enclosing bindings) rfl rfl
    (fun _ _ => .inl) (fun _ _ => .inl)

/-- Making an instance. -/
theorem faithful_newInstance
    (place : ClassRef)
    (faithful : machine.Faithful roots) :
    Machine.Faithful roots { machine with heap := (machine.heap.newInstance place).2 } :=
  faithful.advance (.of_scopes_eq rfl) rfl rfl (fun _ _ => .inl) (fun _ _ => .inl)

/-- Setting a field. -/
theorem faithful_setField
    (receiver : InstanceRef)
    (name : String)
    (value : Value)
    (faithful : machine.Faithful roots) :
    Machine.Faithful roots { machine with heap := machine.heap.setField receiver name value } :=
  faithful.advance (.of_scopes_eq rfl) rfl rfl (fun _ _ => .inl) (fun _ _ => .inl)

/-- Binding a name. -/
theorem faithful_define
    (place : ScopeRef)
    (name : String)
    (value : Value)
    (faithful : machine.Faithful roots) :
    Machine.Faithful roots { machine with heap := machine.heap.define place name value } :=
  faithful.advance (Heap.grows_define machine.heap place name value) rfl rfl
    (fun _ _ => .inl) (fun _ _ => .inl)

/-- Bind a method to a receiver. -/
theorem placed_bindMethod
    {method : Closure}
    (receiver : InstanceRef)
    (faithful : machine.Faithful roots)
    (placed : method.Placed roots machine [receiverScope]) :
    (machine.heap.bindMethod method receiver).1.Placed roots
      { machine with heap := (machine.heap.bindMethod method receiver).2 } [] := by
  obtain ⟨origin, outer, charted, part, inside, scopes, agrees⟩ := placed
  refine ⟨origin, origin.walk.scopes, charted, part, inside, rfl, ?_⟩
  rw [scopes]
  refine Heap.agrees_newScope agrees faithful.globalsMade fun name defined => ?_
  rw [receiverScope, Bindings.get?_set] at defined
  by_cases same : name = selfName
  · simp [same, Bindings.contains]
  · simp [same] at defined

/-- A method that is found in a class is placed, apart from its receiver. -/
theorem placed_method
    {place : ClassRef}
    {name : String}
    {method : Closure}
    (faithful : machine.Faithful roots)
    (found : machine.heap.method? place name = some method) :
    method.Placed roots machine [receiverScope] := by
  rw [Heap.method?, Option.bind_eq_some_iff] at found
  obtain ⟨ofClass, isClass, isMethod⟩ := found
  rw [Class.method?, List.findSome?_eq_some_iff] at isMethod
  obtain ⟨before, table, after, lineage, bound, -⟩ := isMethod
  exact faithful.methods place ofClass isClass table (by simp [lineage]) name method bound

/-- The walk over the methods of a class gets to each of them in the scopes of
the class. -/
theorem charted_method
    {distances : Distances}
    {around : Surroundings}
    {walk : Resolution}
    {functions : List FunctionDecl}
    {method : FunctionDecl}
    (charted : Charted roots distances ⟨around, .methods functions, walk⟩)
    (member : method ∈ functions) :
    ∃ inner : Site, Charted roots distances inner ∧ inner.part = .function method ∧
      inner.around.functionKind ≠ .none ∧ inner.walk.scopes = walk.scopes := by
  induction functions generalizing walk with
  | nil => simp at member
  | cons first rest inductionHypothesis =>
    have wellFormed := charted.wellFormed
    rw [Part.WellFormed, FunctionDecl.AllWellFormed] at wellFormed
    rcases List.mem_cons.mp member with rfl | inRest
    · refine ⟨_, charted.child List.mem_cons_self, rfl, methodKind_ne_none _, rfl⟩
    · have restCharted := charted.child (List.mem_cons_of_mem _ List.mem_cons_self)
      obtain ⟨inner, innerCharted, part, inside, scopes⟩ := inductionHypothesis restCharted inRest
      refine ⟨inner, innerCharted, part, inside, scopes.trans ?_⟩
      exact scopes_function _ first walk wellFormed.1

/-- The methods of a class body are placed, apart from their receivers, if the
scope that they remember agrees with the scopes around the receiver. -/
theorem placed_methodTable
    {around : Surroundings}
    {walk : Resolution}
    {functions : List FunctionDecl}
    {place : ScopeRef}
    {outer : List (Bindings Binding)}
    (charted : Charted roots machine.distances ⟨around, .methods functions, walk⟩)
    (scopes : walk.scopes = receiverScope :: outer)
    (agrees : machine.heap.Agrees machine.globals place outer)
    (name : String)
    (method : Closure)
    (found : (Eval.methodTable place functions).get? name = some method) :
    method.Placed roots machine [receiverScope] := by
  obtain ⟨declaration, member, rfl, rfl⟩ := methodTable_get? found
  obtain ⟨inner, innerCharted, part, inside, sameScopes⟩ := charted_method charted member
  exact ⟨inner, outer, innerCharted, part, inside, sameScopes.trans scopes, agrees⟩

end Steps

end TreeWalk
