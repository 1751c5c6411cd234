import TreeWalk.Proofs.Evaluation.Together

/-!
# Single steps go together

The steps that do not evaluate anything else go together on machines that are paired:
variables are read and assigned, names are bound, operators are applied, properties are
read, and functions and classes are made.
-/

namespace TreeWalk

section Steps

variable
  {lockstep : Lockstep}
  {world : lockstep.World}
  {position : lockstep.Position}
  {machine other : Machine}

/-- What a machine writes stands behind what it has written. -/
theorem Output.written_keep (output : Output) (bytes : ByteArray) :
    ∃ kept, (output.keep bytes).written = output.written ++ kept := by
  unfold Output.keep
  split
  · exact ⟨bytes, rfl⟩
  · exact ⟨_, rfl⟩

/-- Two steps on the heap run together when they keep the heaps paired and their results
related. -/
theorem together_onHeap
    {α : Type}
    {step otherStep : Heap -> α × Heap}
    {related : α -> α -> lockstep.World -> Machine -> Machine -> Prop}
    {later : lockstep.World}
    (same : machine.Paired lockstep world other)
    (heaps : (step machine.heap).2.Paired lockstep.toPairing later (otherStep other.heap).2)
    (extended : lockstep.extended world later)
    (grows : Heap.Grows machine.heap (step machine.heap).2)
    (otherGrows : Heap.Grows other.heap (otherStep other.heap).2)
    (holds : related (step machine.heap).1 (otherStep other.heap).1 later
      { machine with heap := (step machine.heap).2 }
      { other with heap := (otherStep other.heap).2 }) :
    Together lockstep world (Eval.onHeap step) (Eval.onHeap otherStep) machine other related :=
  ⟨later, .ofHeap same heaps extended grows otherGrows, holds⟩

/-- Make scopes right inside of aligned ones, with names that are spelled as the position
in them says. -/
theorem together_newScope
    {inner : lockstep.Position}
    {place otherPlace : ScopeRef}
    (same : machine.Paired lockstep world other)
    (aligned : lockstep.aligned world machine.heap other.heap place otherPlace position)
    (inside : lockstep.inside position inner)
    (values : Bindings Value) :
    Together lockstep world (Eval.onHeap (·.newScope (some place) values))
      (Eval.onHeap (·.newScope (some otherPlace)
        (values.rename (lockstep.naming inner).spell))) machine other
      fun scope otherScope later after otherAfter =>
        lockstep.aligned later after.heap otherAfter.heap scope otherScope inner := by
  obtain ⟨later, extended, heaps, alignedInside⟩ := same.heap.newScope aligned inside values
  exact together_onHeap same heaps extended (Heap.grows_newScope _ _ _)
    (Heap.grows_newScope _ _ _) alignedInside

/-- Make scopes that bind an implicit variable, right inside of aligned ones. -/
theorem together_newFrame
    {place otherPlace : ScopeRef}
    (same : machine.Paired lockstep world other)
    (aligned : lockstep.aligned world machine.heap other.heap place otherPlace position)
    (values : Bindings Value) :
    Together lockstep world (Eval.onHeap (·.newScope (some place) values))
      (Eval.onHeap (·.newScope (some otherPlace) values)) machine other
      fun scope otherScope later after otherAfter =>
        lockstep.aligned later after.heap otherAfter.heap scope otherScope
          (lockstep.frame position) := by
  have made := together_newScope same aligned (lockstep.inside_frame position) values
  have sameNames : values.rename (lockstep.naming (lockstep.frame position)).spell = values := by
    rw [lockstep.naming_frame]
    exact Bindings.rename_id values
  rwa [sameNames] at made

/-- Paired machines print the same line. -/
theorem together_printLine (same : machine.Paired lockstep world other) (value : Value) :
    Together lockstep world (Eval.printLine value) (Eval.printLine value) machine other
      equalResults := by
  have goesOn : ∀ bytes, GoesOn lockstep world machine other world
      { machine with output := machine.output.keep bytes }
      { other with output := machine.output.keep bytes } := by
    intro bytes
    exact ⟨⟨same.heap, same.globals, same.distances, same.callDepth, same.clock, rfl⟩,
      lockstep.extended_refl world, .refl _, .refl _, rfl, rfl, Output.written_keep _ _⟩
  unfold Together Eval.printLine
  dsimp only
  rw [same.heap.display, same.output]
  split
  · exact ⟨world, goesOn _, rfl⟩
  · exact ⟨.refl _ _, world, goesOn _⟩

/-- Bind a name in the current scope, under its other spelling. -/
theorem together_define
    {name otherName : String}
    (abreast : Abreast lockstep world position machine other)
    (declares : lockstep.declares position)
    (spelled : otherName = (lockstep.naming position).spell name)
    (value : Value) :
    Together lockstep world (Eval.define name value) (Eval.define otherName value) machine other
      fun _ _ _ after _ =>
        after = { machine with heap := machine.heap.define machine.scope name value } :=
  ⟨world, .define abreast.same (abreast.innermost declares) spelled value, rfl⟩

/-! ## Variables -/

/-- References to the same variable are looked up in paired scopes. -/
theorem Abreast.looksUp
    {reference otherReference : Reference}
    (abreast : Abreast lockstep world position machine other)
    (reads : lockstep.reads position reference otherReference) :
    (machine.distances[reference.id]? = none ∧ other.distances[otherReference.id]? = none ∧
      otherReference.name.lexeme = reference.name.lexeme) ∨
    ∃ distance otherDistance naming, machine.distances[reference.id]? = some distance ∧
      other.distances[otherReference.id]? = some otherDistance ∧
      lockstep.paired world (machine.heap.ancestor machine.scope distance)
        (other.heap.ancestor other.scope otherDistance) naming ∧
      otherReference.name.lexeme = naming.spell reference.name.lexeme := by
  rw [abreast.same.distances.1, abreast.same.distances.2]
  exact lockstep.reads_paired abreast.same.heap.scopes abreast.aligned reads

/-- References to the same variable read the same value. -/
theorem together_readVariable
    {reference otherReference : Reference}
    (abreast : Abreast lockstep world position machine other)
    (reads : lockstep.reads position reference otherReference) :
    Together lockstep world (Eval.readVariable reference) (Eval.readVariable otherReference)
      machine other equalResults := by
  have same := abreast.same
  unfold Together
  simp only [Eval.readVariable]
  rcases abreast.looksUp reads with
    ⟨absent, otherAbsent, sameName⟩ |
      ⟨distance, otherDistance, naming, found, otherFound, paired, spelled⟩
  · rw [absent, otherAbsent, sameName, same.globals.1, same.globals.2, same.heap.get?_globals]
    dsimp only
    cases machine.heap.get? lockstep.globals reference.name.lexeme with
    | some value => exact ⟨world, .refl same, rfl⟩
    | none => exact together_fail same (lockstep.reads_line reads) _
  · rw [found, otherFound, spelled]
    exact ⟨world, .refl same, same.heap.getAt paired _⟩

/-- A variable that both runs change is bound in paired scopes. -/
theorem Abreast.binder?
    {reference otherReference : Reference}
    (abreast : Abreast lockstep world position machine other)
    (reads : lockstep.reads position reference otherReference) :
    (machine.binder? reference = none ∧ other.binder? otherReference = none ∧
      otherReference.name.lexeme = reference.name.lexeme) ∨
    ∃ place otherPlace naming, machine.binder? reference = some place ∧
      other.binder? otherReference = some otherPlace ∧
      lockstep.paired world place otherPlace naming ∧
      otherReference.name.lexeme = naming.spell reference.name.lexeme := by
  have same := abreast.same
  unfold Machine.binder?
  rcases abreast.looksUp reads with
    ⟨absent, otherAbsent, sameName⟩ |
      ⟨distance, otherDistance, naming, found, otherFound, paired, spelled⟩
  · rw [absent, otherAbsent, sameName, same.globals.1, same.globals.2]
    dsimp only
    rw [same.heap.binder?_globals]
    obtain ⟨paired, outermost, -⟩ := lockstep.outermost same.heap.scopes
    cases binder : machine.heap.binder? lockstep.globals reference.name.lexeme with
    | none => exact .inl ⟨rfl, rfl, rfl⟩
    | some place =>
      have isGlobal : place = lockstep.globals := by
        unfold Heap.binder? at binder
        rw [Heap.chain_outermost outermost] at binder
        exact List.mem_singleton.mp (List.mem_of_find?_eq_some binder)
      subst isGlobal
      exact .inr ⟨_, _, .same, rfl, rfl, paired, rfl⟩
  · rw [found, otherFound]
    exact .inr ⟨_, _, naming, rfl, rfl, paired, spelled⟩

/-- References to the same variable assign the same value. -/
theorem together_assignVariable
    {reference otherReference : Reference}
    (abreast : Abreast lockstep world position machine other)
    (reads : lockstep.reads position reference otherReference)
    (value : Value) :
    Together lockstep world (Eval.assignVariable reference value)
      (Eval.assignVariable otherReference value) machine other equalResults := by
  unfold Together
  rw [Eval.assignVariable_eq, Eval.assignVariable_eq]
  rcases abreast.binder? reads with
    ⟨unbound, otherUnbound, sameName⟩ |
      ⟨place, otherPlace, naming, bound, otherBound, paired, spelled⟩
  · rw [unbound, otherUnbound, sameName]
    exact together_fail abreast.same (lockstep.reads_line reads) _
  · rw [bound, otherBound]
    exact ⟨world, .define abreast.same paired spelled value, rfl⟩

/-- Assign to a name that is bound in the current scope and keeps its spelling. -/
theorem together_assignBound
    {name otherName : Token}
    (abreast : Abreast lockstep world position machine other)
    (declares : lockstep.declares position)
    (names : otherName.lexeme = name.lexeme)
    (keeps : (lockstep.naming position).spell name.lexeme = name.lexeme)
    (bound : (machine.heap.scope machine.scope).bindings.contains name.lexeme = true)
    (value : Value) :
    Together lockstep world (Eval.assignFrom machine.scope name value)
      (Eval.assignFrom other.scope otherName value) machine other equalResults := by
  have same := abreast.same
  have paired := abreast.innermost declares
  have otherBound : (other.heap.scope other.scope).bindings.contains otherName.lexeme = true := by
    rw [names, ← bound, ← same.heap.contains paired name.lexeme, keeps]
  unfold Together
  rw [Eval.assignFrom_eq, Eval.assignFrom_eq, Heap.binder?_innermost bound,
    Heap.binder?_innermost otherBound]
  exact ⟨world, .define same paired (names.trans keeps.symm) value, rfl⟩

/-! ## Operators -/

section Operators

variable {operator otherOperator : Token}

/-- The same operand gives the same value, or the same failure. -/
theorem together_applyUnary
    (same : machine.Paired lockstep world other)
    (operators : operator.Paired lockstep.toPairing otherOperator)
    (right : Value) :
    Together lockstep world (Eval.applyUnary operator right)
      (Eval.applyUnary otherOperator right) machine other equalResults := by
  unfold Eval.applyUnary
  rw [operators.kind, operators.lexeme]
  split
  · exact together_pure same rfl
  · split
    · exact together_pure same rfl
    · exact together_fail same operators.line _
  · exact together_fail same operators.line _

theorem together_add
    (same : machine.Paired lockstep world other)
    (operators : operator.Paired lockstep.toPairing otherOperator)
    (left right : Value) :
    Together lockstep world (Eval.add operator left right) (Eval.add otherOperator left right)
      machine other equalResults := by
  unfold Eval.add
  rw [operators.lexeme]
  split
  · exact together_pure same rfl
  · refine together_get (together_pure same ?_)
    rw [equalResults, same.heap.display]
  · refine together_get (together_pure same ?_)
    rw [equalResults, same.heap.display]
  · exact together_fail same operators.line _

theorem together_applyNumeric
    (same : machine.Paired lockstep world other)
    (operators : operator.Paired lockstep.toPairing otherOperator)
    (x y : Float) :
    Together lockstep world (Eval.applyNumeric operator x y)
      (Eval.applyNumeric otherOperator x y) machine other equalResults := by
  unfold Eval.applyNumeric
  rw [operators.kind, operators.lexeme]
  split
  case h_8 => exact together_fail same operators.line _
  all_goals exact together_pure same rfl

/-- The same two operands give the same value, or the same failure. -/
theorem together_applyBinary
    (same : machine.Paired lockstep world other)
    (operators : operator.Paired lockstep.toPairing otherOperator)
    (left right : Value) :
    Together lockstep world (Eval.applyBinary operator left right)
      (Eval.applyBinary otherOperator left right) machine other equalResults := by
  unfold Eval.applyBinary
  rw [operators.kind, operators.lexeme]
  split
  · exact together_pure same rfl
  · exact together_pure same rfl
  · exact together_add same operators left right
  · split
    · exact together_applyNumeric same operators _ _
    · exact together_fail same operators.line _

/-- A logical operator is decided by the same operands in both texts. -/
theorem Token.Paired.decidedBy
    (operators : operator.Paired lockstep.toPairing otherOperator)
    (left : Value) :
    Eval.decidedBy otherOperator left = Eval.decidedBy operator left := by
  rw [Eval.decidedBy, Eval.decidedBy, Token.isKeyword, Token.isKeyword, operators.kind]

end Operators

/-! ## Properties -/

/-- A method is bound to its receiver in a scope that has been made for it. -/
theorem Eval.onHeap_bindMethod (method : Closure) (receiver : InstanceRef) :
    onHeap (·.bindMethod method receiver) = do
      let scope ← onHeap (·.newScope (some method.scope)
        (Bindings.empty.set selfName (.object receiver)))
      return { method with scope := scope } :=
  rfl

/-- A method is bound to its receiver before a function is made of it. -/
theorem Eval.bound_eq (method : Closure) (receiver : InstanceRef) :
    bound method receiver = do
      let closure ← onHeap (·.bindMethod method receiver)
      let place ← onHeap (·.newFunction closure)
      return .function place :=
  rfl

/-- Bind methods that belong together to the same receiver. -/
theorem together_bindMethod
    {method otherMethod : Closure}
    (same : machine.Paired lockstep world other)
    (methods : method.Paired lockstep.toPairing world machine.heap other.heap lockstep.frame
      otherMethod)
    (receiver : InstanceRef) :
    Together lockstep world (Eval.onHeap (·.bindMethod method receiver))
      (Eval.onHeap (·.bindMethod otherMethod receiver)) machine other
      fun closure otherClosure later after otherAfter =>
        closure.Paired lockstep.toPairing later after.heap otherAfter.heap id otherClosure := by
  obtain ⟨position, -, aligned, functions, isInitializer⟩ := methods
  rw [Eval.onHeap_bindMethod, Eval.onHeap_bindMethod]
  refine (together_newFrame same aligned _).bind ?_
  intro scope otherScope later after otherAfter goesOn inside
  exact together_pure goesOn.same
    ⟨lockstep.frame position, lockstep.declares_inside (lockstep.inside_frame position), inside,
      functions, isInitializer⟩

/-- Put functions that belong together on the heaps. -/
theorem together_newFunction
    {closure otherClosure : Closure}
    (same : machine.Paired lockstep world other)
    (closures : closure.Paired lockstep.toPairing world machine.heap other.heap id otherClosure) :
    Together lockstep world (Eval.onHeap (·.newFunction closure))
      (Eval.onHeap (·.newFunction otherClosure)) machine other equalResults := by
  refine together_onHeap same (same.heap.newFunction closures)
    (lockstep.extended_refl world) (.of_scopes_eq rfl) (.of_scopes_eq rfl) ?_
  simp [equalResults, Heap.newFunction, same.heap.functionsSize]

/-- Make function values of methods that belong together. -/
theorem together_bound
    {method otherMethod : Closure}
    (same : machine.Paired lockstep world other)
    (methods : method.Paired lockstep.toPairing world machine.heap other.heap lockstep.frame
      otherMethod)
    (receiver : InstanceRef) :
    Together lockstep world (Eval.bound method receiver) (Eval.bound otherMethod receiver)
      machine other equalResults := by
  rw [Eval.bound_eq, Eval.bound_eq]
  refine (together_bindMethod same methods receiver).bind ?_
  intro closure otherClosure later after otherAfter goesOn closures
  refine (together_newFunction goesOn.same closures).bind ?_
  rintro place _ last ending otherEnding further rfl
  exact together_pure further.same rfl

/-- The same property of the same instance. -/
theorem together_readProperty
    {name otherName : Token}
    (same : machine.Paired lockstep world other)
    (names : name.Paired lockstep.toPairing otherName)
    (receiver : InstanceRef) :
    Together lockstep world (Eval.readProperty receiver name)
      (Eval.readProperty receiver otherName) machine other equalResults := by
  have sameObject : other.heap.instance? receiver = machine.heap.instance? receiver := by
    rw [Heap.instance?, Heap.instance?, same.heap.instances]
  unfold Eval.readProperty
  refine together_get ?_
  dsimp only
  rw [sameObject, names.lexeme]
  split
  · exact together_pure same rfl
  · cases machine.heap.instance? receiver with
    | none => exact together_fail same names.line _
    | some object =>
      rcases rel_cases (same.heap.method? object.ofClass name.lexeme) with
        ⟨isNone, otherIsNone⟩ | ⟨method, otherMethod, isMethod, otherIsMethod, methods⟩
      · rw [Option.bind_some, Option.bind_some, isNone, otherIsNone]
        exact together_fail same names.line _
      · rw [Option.bind_some, Option.bind_some, isMethod, otherIsMethod]
        exact together_bound same methods receiver

/-- The same method of the same superclass, bound to the same receiver. -/
theorem together_readInherited
    {keyword otherKeyword : Reference}
    {method otherMethod : Token}
    (abreast : Abreast lockstep world position machine other)
    (inherits : lockstep.inherits position keyword otherKeyword)
    (methods : method.Paired lockstep.toPairing otherMethod) :
    Together lockstep world (Eval.readInherited keyword method)
      (Eval.readInherited otherKeyword otherMethod) machine other equalResults := by
  have same := abreast.same
  have lines := lockstep.inherits_line inherits
  unfold Eval.readInherited
  refine together_get ?_
  rw [same.distances.1, same.distances.2, methods.lexeme]
  rcases lockstep.inherits_paired same.heap.scopes abreast.aligned inherits with
    ⟨absent, otherAbsent⟩ | ⟨distance, otherDistance, naming, inner, found, otherFound, paired,
      pairedInner⟩
  · rw [absent, otherAbsent]
    exact together_fail same lines _
  · have superclasses := same.heap.getAt paired superclassName
    have receivers := same.heap.getAt pairedInner selfName
    rw [naming.keepsSuperclass] at superclasses
    rw [inner.keepsSelf] at receivers
    rw [found, otherFound]
    dsimp only
    rw [superclasses, receivers]
    split
    · rename_i superclass receiver _ _
      rcases rel_cases (same.heap.method? superclass method.lexeme) with
        ⟨isNone, otherIsNone⟩ | ⟨one, two, isOne, isTwo, related⟩
      · rw [isNone, otherIsNone]
        exact together_fail same methods.line _
      · rw [isOne, isTwo]
        exact together_bound same related receiver
    · exact together_fail same lines _

/-- Set the same field of the same instance. -/
theorem together_setField
    {name otherName : Token}
    (same : machine.Paired lockstep world other)
    (names : name.Paired lockstep.toPairing otherName)
    (receiver : InstanceRef)
    (value : Value) :
    Together lockstep world (Eval.changeHeap (·.setField receiver name.lexeme value))
      (Eval.changeHeap (·.setField receiver otherName.lexeme value)) machine other
      equalResults := by
  refine ⟨world, .ofHeap same ?_ (lockstep.extended_refl world) (.of_scopes_eq rfl)
    (.of_scopes_eq rfl), rfl⟩
  have sameInstances := same.heap.instances
  dsimp only [Heap.setField]
  rw [names.lexeme, sameInstances]
  exact same.heap.withInstances _

/-! ## Native functions -/

/-- The same instant on paired machines. -/
theorem together_readClock (same : machine.Paired lockstep world other) :
    Together lockstep world Eval.readClock Eval.readClock machine other equalResults := by
  have ticked : GoesOn lockstep world machine other world machine.ticked other.ticked := by
    refine ⟨⟨same.heap, same.globals, same.distances, same.callDepth, ?_, same.output⟩,
      lockstep.extended_refl world, .refl _, .refl _, rfl, rfl, .empty, by simp [Machine.ticked]⟩
    rw [Machine.ticked, Machine.ticked, same.clock]
  unfold Together
  rw [Eval.readClock_eq, Eval.readClock_eq, same.clock]
  cases machine.clock.failure? machine.clock.readings with
  | none => exact ⟨world, ticked, rfl⟩
  | some text => exact ⟨.refl _ _, world, ticked⟩

/-- A native function gives the same on paired machines. -/
theorem together_callNative
    (same : machine.Paired lockstep world other)
    (native : Native)
    (arguments : List Value) :
    Together lockstep world (Eval.callNative native arguments) (Eval.callNative native arguments)
      machine other equalResults := by
  unfold Eval.callNative
  split
  · exact together_readClock same
  · split
    · exact together_pure same rfl
    · exact together_throw same _

/-! ## Declarations -/

/-- Functions whose declarations belong together are made and bound. -/
theorem together_declareFunction
    {declaration otherDeclaration : FunctionDecl}
    (abreast : Abreast lockstep world position machine other)
    (declares : lockstep.declares position)
    (keeps : (lockstep.naming position).spell declaration.name.lexeme = declaration.name.lexeme)
    (functions : lockstep.function position declaration otherDeclaration) :
    Together lockstep world (Eval.declareFunction declaration)
      (Eval.declareFunction otherDeclaration) machine other equalResults := by
  have closures : Closure.Paired lockstep.toPairing world machine.heap other.heap id
      ⟨declaration, machine.scope, false⟩ ⟨otherDeclaration, other.scope, false⟩ :=
    ⟨position, declares, abreast.aligned, functions, rfl⟩
  have sameName := (lockstep.function_shape functions).name
  unfold Eval.declareFunction
  refine together_get ((together_newFunction abreast.same closures).bind ?_)
  rintro place _ later after otherAfter goesOn rfl
  exact (together_define (abreast.goOn goesOn) declares (sameName.trans keeps.symm) _).imp
    fun _ _ _ _ _ _ => rfl

/-- The methods of a class body, apart from their receivers. -/
theorem methodsPaired_methodTable
    {heap otherHeap : Heap}
    {place otherPlace : ScopeRef}
    {functions otherFunctions : List FunctionDecl}
    (declares : lockstep.declares position)
    (aligned : lockstep.aligned world heap otherHeap place otherPlace position)
    (paired : List.Forall₂ (lockstep.function (lockstep.frame position)) functions
      otherFunctions) :
    (Eval.methodTable place functions).MethodsPaired lockstep.toPairing world heap otherHeap
      (Eval.methodTable otherPlace otherFunctions) := by
  -- The table is filled from the left, so the statement is about any table to begin with.
  have tables : ∀ table otherTable : Bindings Closure,
      table.MethodsPaired lockstep.toPairing world heap otherHeap otherTable ->
      (functions.foldl (fun table method => table.set method.name.lexeme
        ⟨method, place, method.name.lexeme = initializerName⟩) table).MethodsPaired
          lockstep.toPairing world heap otherHeap
        (otherFunctions.foldl (fun table method => table.set method.name.lexeme
          ⟨method, otherPlace, method.name.lexeme = initializerName⟩) otherTable) := by
    induction paired with
    | nil => exact fun _ _ same => same
    | cons methods _ inductionHypothesis =>
      intro table otherTable same
      have sameName := (lockstep.function_shape methods).name
      rw [List.foldl_cons, List.foldl_cons, sameName]
      refine inductionHypothesis _ _ fun name => ?_
      rw [Bindings.get?_set, Bindings.get?_set]
      split
      · exact .some ⟨position, declares, aligned, methods, rfl⟩
      · exact same name
  exact tables .empty .empty fun name => .none

/-- Make a class, and assign it to its name. -/
theorem together_makeClass
    {name otherName : Token}
    {place otherPlace : ScopeRef}
    {functions otherFunctions : List FunctionDecl}
    {inherited otherInherited : List (Bindings Closure)}
    (abreast : Abreast lockstep world position machine other)
    (declares : lockstep.declares position)
    (names : otherName.lexeme = name.lexeme)
    (keeps : (lockstep.naming position).spell name.lexeme = name.lexeme)
    (bound : (machine.heap.scope machine.scope).bindings.contains name.lexeme = true)
    (own : (Eval.methodTable place functions).MethodsPaired lockstep.toPairing world machine.heap
      other.heap (Eval.methodTable otherPlace otherFunctions))
    (others : List.Forall₂
      (Bindings.MethodsPaired lockstep.toPairing world machine.heap other.heap)
      inherited otherInherited) :
    Together lockstep world (Eval.makeClass name functions machine.scope place inherited)
      (Eval.makeClass otherName otherFunctions other.scope otherPlace otherInherited) machine other
      equalResults := by
  have same := abreast.same
  have classes : Class.Paired lockstep.toPairing world machine.heap other.heap
      ⟨name.lexeme, Eval.methodTable place functions :: inherited⟩
      ⟨otherName.lexeme, Eval.methodTable otherPlace otherFunctions :: otherInherited⟩ :=
    ⟨names, .cons own others⟩
  have made : Together lockstep world
      (Eval.onHeap (·.newClass ⟨name.lexeme, Eval.methodTable place functions :: inherited⟩))
      (Eval.onHeap (·.newClass
        ⟨otherName.lexeme, Eval.methodTable otherPlace otherFunctions :: otherInherited⟩))
      machine other equalResults := by
    refine together_onHeap same (same.heap.newClass classes)
      (lockstep.extended_refl world) (.of_scopes_eq rfl) (.of_scopes_eq rfl) ?_
    simp [equalResults, Heap.newClass, same.heap.classesSize]
  have scopeMade := (lockstep.bindings same.heap.scopes (abreast.innermost declares)).1
  unfold Eval.makeClass
  refine made.bind ?_
  rintro made _ later after otherAfter goesOn rfl
  rw [← goesOn.scope, ← goesOn.otherScope]
  exact together_assignBound (abreast.goOn goesOn) declares names keeps
    (goesOn.bound scopeMade bound) _

/-- Execute a class declaration from where its superclass is known. -/
theorem together_declareClassUnder
    {name otherName : Token}
    {superclass : Option Reference}
    {functions otherFunctions : List FunctionDecl}
    {parent : Option ClassRef}
    (abreast : Abreast lockstep world position machine other)
    (declares : lockstep.declares position)
    (names : otherName.lexeme = name.lexeme)
    (keeps : (lockstep.naming position).spell name.lexeme = name.lexeme)
    (paired : List.Forall₂
      (lockstep.function (lockstep.frame (lockstep.aroundMethods position superclass)))
      functions otherFunctions)
    (present : parent.isSome = superclass.isSome) :
    Together lockstep world (Eval.declareClassUnder name functions parent)
      (Eval.declareClassUnder otherName otherFunctions parent) machine other equalResults := by
  have scopeMade := (lockstep.bindings abreast.same.heap.scopes (abreast.innermost declares)).1
  unfold Eval.declareClassUnder
  refine (together_define abreast declares (names.trans keeps.symm) .null).bind ?_
  rintro _ _ later named otherNamed goesOn isNamed
  have stands := abreast.goOn goesOn
  -- The name is bound before the methods are made, and stays bound in the scope it was declared in.
  have bound : (named.heap.scope named.scope).bindings.contains name.lexeme = true := by
    rw [isNamed]
    dsimp only
    rw [Heap.contains_define_self _ scopeMade, beq_self_eq_true, Bool.true_or]
  have namedMade := (lockstep.bindings stands.same.heap.scopes (stands.innermost declares)).1
  refine together_get ?_
  cases parent with
  | none =>
    cases superclass with
    | some reference => cases present
    | none =>
      exact together_makeClass stands declares names keeps bound
        (methodsPaired_methodTable declares stands.aligned paired) .nil
  | some parent =>
    cases superclass with
    | none => cases present
    | some reference =>
      refine (together_newFrame stands.same stands.aligned _).bind ?_
      rintro place otherPlace last framed otherFramed further aligned
      have placed := stands.goOn further
      have own := methodsPaired_methodTable
        (lockstep.declares_inside (lockstep.inside_frame position)) aligned paired
      refine together_get ?_
      dsimp only
      rw [← further.scope, ← further.otherScope]
      exact together_makeClass placed declares names keeps (further.bound namedMade bound) own
        (placed.same.heap.lineage parent)

/-- References to the same variable read the same superclass, or report that it is none. -/
theorem together_superclassOf
    {reference otherReference : Reference}
    (abreast : Abreast lockstep world position machine other)
    (reads : lockstep.reads position reference otherReference) :
    Together lockstep world (Eval.superclassOf reference) (Eval.superclassOf otherReference)
      machine other equalResults := by
  unfold Eval.superclassOf
  refine (together_readVariable abreast reads).bind ?_
  rintro _ value later after otherAfter goesOn rfl
  cases value
  case classObject place => exact together_pure goesOn.same rfl
  all_goals exact together_fail goesOn.same (lockstep.reads_line reads) _

/-- Classes whose declarations belong together are made and bound. -/
theorem together_declareClass
    {name otherName : Token}
    {superclass otherSuperclass : Option Reference}
    {functions otherFunctions : List FunctionDecl}
    (abreast : Abreast lockstep world position machine other)
    (declares : lockstep.declares position)
    (names : otherName.lexeme = name.lexeme)
    (keeps : (lockstep.naming position).spell name.lexeme = name.lexeme)
    (superclasses : Option.Rel (lockstep.reads position) superclass otherSuperclass)
    (paired : List.Forall₂
      (lockstep.function (lockstep.frame (lockstep.aroundMethods position superclass)))
      functions otherFunctions) :
    Together lockstep world (Eval.declareClass name superclass functions)
      (Eval.declareClass otherName otherSuperclass otherFunctions) machine other equalResults := by
  cases superclasses with
  | none =>
    rw [Eval.declareClass_none, Eval.declareClass_none]
    exact together_declareClassUnder abreast declares names keeps paired rfl
  | some reads =>
    rw [Eval.declareClass_some, Eval.declareClass_some]
    refine (together_superclassOf abreast reads).bind ?_
    rintro parent _ later after otherAfter goesOn rfl
    exact together_declareClassUnder (abreast.goOn goesOn) declares names keeps paired rfl

end Steps

end TreeWalk
