import TreeWalk.Proofs.Evaluation.PairedSteps

/-!
# Whole evaluations go together

Parts of programs that belong together are evaluated and executed together, on machines
that are paired: both evaluations come to the same value or are interrupted for the same
reason, and the machines are paired again.  The proof is by induction on the fuel.  It is
done once, for every way to pair two runs.
-/

namespace TreeWalk

section Runs

variable
  {lockstep : Lockstep}
  {world : lockstep.World}
  {position : lockstep.Position}
  {machine other : Machine}

/-- Expressions that belong together, with a given amount of fuel, are evaluated
together. -/
def EvaluatesTogether (lockstep : Lockstep) (fuel : Nat) : Prop :=
  ∀ ⦃position value otherValue world machine other⦄,
    lockstep.value position value otherValue ->
    Abreast lockstep world position machine other ->
    Together lockstep world (Eval.evaluate fuel value) (Eval.evaluate fuel otherValue) machine
      other equalResults

/-- Statements that belong together, with a given amount of fuel, are executed together. -/
def ExecutesTogether (lockstep : Lockstep) (fuel : Nat) : Prop :=
  ∀ ⦃position step otherStep world machine other⦄,
    lockstep.step position step otherStep ->
    Abreast lockstep world position machine other ->
    Together lockstep world (Eval.execute fuel step) (Eval.execute fuel otherStep) machine other
      equalResults

/-- Loops that belong together, with a given amount of fuel, are executed together. -/
def RepeatsTogether (lockstep : Lockstep) (fuel : Nat) : Prop :=
  ∀ ⦃position condition otherCondition body otherBody world machine other⦄,
    lockstep.value position condition otherCondition ->
    lockstep.step position body otherBody ->
    Abreast lockstep world position machine other ->
    Together lockstep world (Eval.repeatWhile fuel condition body)
      (Eval.repeatWhile fuel otherCondition otherBody) machine other equalResults

variable {fuel : Nat}

/-- Arguments that belong together give the same values. -/
theorem together_each
    {values otherValues : List Expr}
    (evaluates : EvaluatesTogether lockstep fuel)
    (paired : List.Forall₂ (lockstep.value position) values otherValues)
    (abreast : Abreast lockstep world position machine other) :
    Together lockstep world (Eval.each (Eval.evaluate fuel) values)
      (Eval.each (Eval.evaluate fuel) otherValues) machine other equalResults := by
  induction paired generalizing world machine other with
  | nil =>
    rw [Eval.each]
    exact together_pure abreast.same rfl
  | cons first _ inductionHypothesis =>
    rw [Eval.each, Eval.each]
    refine (evaluates first abreast).bind ?_
    rintro value _ later after otherAfter goesOn rfl
    refine (inductionHypothesis (abreast.goOn goesOn)).bind ?_
    rintro others _ last ending otherEnding further rfl
    exact together_pure further.same rfl

/-- Optional expressions that belong together give the same value. -/
theorem together_optional
    {value otherValue : Option Expr}
    (evaluates : EvaluatesTogether lockstep fuel)
    (paired : Option.Rel (lockstep.value position) value otherValue)
    (abreast : Abreast lockstep world position machine other) :
    Together lockstep world (Eval.optional (Eval.evaluate fuel) value)
      (Eval.optional (Eval.evaluate fuel) otherValue) machine other equalResults := by
  cases paired with
  | none => exact together_pure abreast.same rfl
  | some values => exact evaluates values abreast

/-- Statements in order that belong together flow in the same way. -/
theorem together_sequence
    {steps otherSteps : List Stmt}
    (executes : ExecutesTogether lockstep fuel)
    (paired : List.Forall₂ (lockstep.step position) steps otherSteps)
    (abreast : Abreast lockstep world position machine other) :
    Together lockstep world (Eval.sequence (Eval.execute fuel) steps)
      (Eval.sequence (Eval.execute fuel) otherSteps) machine other equalResults := by
  induction paired generalizing world machine other with
  | nil =>
    rw [Eval.sequence]
    exact together_pure abreast.same rfl
  | cons first _ inductionHypothesis =>
    rw [Eval.sequence, Eval.sequence]
    refine (executes first abreast).bind ?_
    rintro _ flow later after otherAfter goesOn rfl
    cases flow with
    | normal => exact inductionHypothesis (abreast.goOn goesOn)
    | returned value => exact together_pure goesOn.same rfl

/-! ## Calls -/

/-- Go to scopes that are aligned. -/
theorem Machine.Paired.enter
    {scope otherScope : ScopeRef}
    (same : machine.Paired lockstep world other)
    (aligned : lockstep.aligned world machine.heap other.heap scope otherScope position) :
    Abreast lockstep world position { machine with scope := scope }
      { other with scope := otherScope } :=
  ⟨⟨same.heap, same.globals, same.distances, same.callDepth, same.clock, same.output⟩, aligned⟩

/-- Make the scopes of a block or a call, and execute its statements there. -/
theorem together_sequenceWithin
    {inner : lockstep.Position}
    {place otherPlace : ScopeRef}
    {body otherBody : List Stmt}
    (executes : ExecutesTogether lockstep fuel)
    (same : machine.Paired lockstep world other)
    (aligned : lockstep.aligned world machine.heap other.heap place otherPlace position)
    (inside : lockstep.inside position inner)
    (values : Bindings Value)
    (paired : List.Forall₂ (lockstep.step inner) body otherBody) :
    Together lockstep world
      (do
        let scope ← Eval.onHeap (·.newScope (some place) values)
        Eval.within scope (Eval.sequence (Eval.execute fuel) body))
      (do
        let scope ← Eval.onHeap (·.newScope (some otherPlace)
          (values.rename (lockstep.naming inner).spell))
        Eval.within scope (Eval.sequence (Eval.execute fuel) otherBody))
      machine other equalResults := by
  refine (together_newScope same aligned inside values).bind ?_
  intro scope otherScope later after otherAfter goesOn alignedInside
  exact together_within (together_sequence executes paired (goesOn.same.enter alignedInside))

/-- Parameters that are spelled anew get the same arguments. -/
theorem bindParameters_spell
    {naming : Naming}
    {parameters others : List Token}
    (arguments : List Value)
    (spelled : others.map (·.lexeme) =
      parameters.map fun parameter => naming.spell parameter.lexeme) :
    Eval.bindParameters others arguments =
      (Eval.bindParameters parameters arguments).rename naming.spell := by
  -- The table is filled from the left, so the statement is about any table to begin with.
  have fromBindings : ∀ (parameters others : List Token) (arguments : List Value)
      (bindings : Bindings Value),
      others.map (·.lexeme) = parameters.map (fun parameter => naming.spell parameter.lexeme) ->
      (others.zip arguments).foldl
          (fun bindings pair => bindings.set pair.1.lexeme pair.2)
          (bindings.rename naming.spell) =
        ((parameters.zip arguments).foldl
          (fun bindings pair => bindings.set pair.1.lexeme pair.2) bindings).rename
            naming.spell := by
    intro parameters
    induction parameters with
    | nil =>
      intro others arguments bindings spelled
      obtain rfl := List.map_eq_nil_iff.mp spelled
      rfl
    | cons first rest inductionHypothesis =>
      intro others arguments bindings spelled
      cases others with
      | nil => cases spelled
      | cons otherFirst otherRest =>
        obtain ⟨isFirst, isRest⟩ := List.cons_eq_cons.mp spelled
        cases arguments with
        | nil => rfl
        | cons argument others =>
          have sameFirst : otherFirst.lexeme = naming.spell first.lexeme := isFirst
          rw [List.zip_cons_cons, List.zip_cons_cons, List.foldl_cons, List.foldl_cons,
            ← inductionHypothesis _ _ _ isRest, ← Bindings.set_rename naming.injective, sameFirst]
  exact fromBindings parameters others arguments .empty spelled

/-- Functions that belong together, called with the same arguments, run their bodies
together. -/
theorem together_callClosure
    {closure otherClosure : Closure}
    (executes : ExecutesTogether lockstep fuel)
    (same : machine.Paired lockstep world other)
    (closures : closure.Paired lockstep.toPairing world machine.heap other.heap id otherClosure)
    (arguments : List Value) :
    Together lockstep world (Eval.callClosure (Eval.execute fuel) closure arguments)
      (Eval.callClosure (Eval.execute fuel) otherClosure arguments) machine other
      equalResults := by
  obtain ⟨position, declares, aligned, functions, isInitializer⟩ := closures
  obtain ⟨inner, inside, parameters, bodies⟩ := (lockstep.function_shape functions).body
  unfold Eval.callClosure
  rw [isInitializer, bindParameters_spell arguments parameters, ← bind_assoc, ← bind_assoc]
  refine (together_sequenceWithin executes same aligned inside _ bodies).bind ?_
  rintro _ flow later after otherAfter goesOn rfl
  have current := goesOn.same
  split
  · refine together_get (together_pure current ?_)
    have stillAligned :=
      lockstep.aligned_grow aligned goesOn.grows goesOn.otherGrows goesOn.extended
    have receivers :=
      current.heap.get? (lockstep.innermost current.heap.scopes stillAligned declares) selfName
    rw [(lockstep.naming position).keepsSelf] at receivers
    rw [equalResults, Heap.getAt, Heap.getAt, Heap.ancestor, Heap.ancestor, receivers]
  · cases flow with
    | normal => exact together_pure current rfl
    | returned value => exact together_pure current rfl

/-- The same class, set up by initializers that belong together, gives the same
instance. -/
theorem together_instantiate
    {initializer otherInitializer : Option Closure}
    (executes : ExecutesTogether lockstep fuel)
    (same : machine.Paired lockstep world other)
    (place : ClassRef)
    (initializers : Option.Rel
      (Closure.Paired lockstep.toPairing world machine.heap other.heap lockstep.frame) initializer
      otherInitializer)
    (arguments : List Value) :
    Together lockstep world
      (Eval.instantiate (Eval.execute fuel) place initializer arguments)
      (Eval.instantiate (Eval.execute fuel) place otherInitializer arguments) machine other
      equalResults := by
  have sameInstances := same.heap.instances
  have made : Together lockstep world (Eval.onHeap (·.newInstance place))
      (Eval.onHeap (·.newInstance place)) machine other equalResults := by
    refine together_onHeap same ?_ (lockstep.extended_refl world) (.of_scopes_eq rfl)
      (.of_scopes_eq rfl) ?_
    · dsimp only [Heap.newInstance]
      rw [sameInstances]
      exact same.heap.withInstances _
    · simp [equalResults, Heap.newInstance, sameInstances]
  unfold Eval.instantiate
  refine made.bind ?_
  rintro _ receiver later after otherAfter goesOn rfl
  have current := goesOn.same
  cases initializers with
  | none => exact together_pure current rfl
  | some methods =>
    have stillPaired := methods.grow goesOn.grows goesOn.otherGrows goesOn.extended
    refine (together_bindMethod current stillPaired receiver).bind ?_
    intro closure otherClosure last ending otherEnding further closures
    refine (together_callClosure executes further.same closures arguments).bind ?_
    intro _ _ _ _ _ called _
    exact together_pure called.same rfl

/-- What can be called, and its counterpart on the other machine. -/
inductive Callable.Paired
    (lockstep : Lockstep)
    (world : lockstep.World)
    (heap other : Heap) : Callable -> Callable -> Prop
  | native (function : Native) :
      Paired lockstep world heap other (.native function) (.native function)
  | closure
      {closure otherClosure : Closure}
      (closures : closure.Paired lockstep.toPairing world heap other id otherClosure) :
      Paired lockstep world heap other (.closure closure) (.closure otherClosure)
  | ofClass
      {initializer otherInitializer : Option Closure}
      (place : ClassRef)
      (initializers : Option.Rel
        (Closure.Paired lockstep.toPairing world heap other lockstep.frame) initializer
        otherInitializer) :
      Paired lockstep world heap other (.ofClass place initializer)
        (.ofClass place otherInitializer)

/-- The same value can be called in paired heaps, in ways that belong together. -/
theorem Heap.Paired.callable?
    {heap otherHeap : Heap}
    (same : heap.Paired lockstep.toPairing world otherHeap)
    (value : Value) :
    Option.Rel (Callable.Paired lockstep world heap otherHeap) (heap.callable? value)
      (otherHeap.callable? value) := by
  cases value with
  | native place =>
    rw [Heap.callable?, Heap.callable?, native?, native?, same.natives]
    cases heap.natives[place.index]? with
    | none => exact .none
    | some native => exact .some (.native native)
  | function place => exact rel_map (same.functions place) fun _ _ found => .closure found
  | classObject place =>
    exact rel_map (same.classes place) fun _ _ found =>
      .ofClass place (found.method? initializerName)
  | _ => exact .none

/-- What belongs together takes the same number of arguments. -/
theorem Callable.Paired.arity
    {heap otherHeap : Heap}
    {callable otherCallable : Callable}
    (callables : callable.Paired lockstep world heap otherHeap otherCallable) :
    otherCallable.arity = callable.arity := by
  cases callables with
  | native function => rfl
  | closure closures => exact closures.arity
  | ofClass place initializers =>
    cases initializers with
    | none => rfl
    | some closures => exact closures.arity

/-- The same callee with the same arguments is invoked together. -/
theorem together_invoke
    {paren otherParen : Token}
    (executes : ExecutesTogether lockstep fuel)
    (same : machine.Paired lockstep world other)
    (parens : paren.Paired lockstep.toPairing otherParen)
    (callee : Value)
    (arguments : List Value) :
    Together lockstep world (Eval.invoke (Eval.execute fuel) callee paren arguments)
      (Eval.invoke (Eval.execute fuel) callee otherParen arguments) machine other
      equalResults := by
  unfold Eval.invoke
  refine together_get ?_
  rcases rel_cases (same.heap.callable? callee) with
    ⟨isNone, otherIsNone⟩ | ⟨callable, otherCallable, isCallable, otherIsCallable, callables⟩
  · rw [isNone, otherIsNone]
    exact together_fail same parens.line _
  · rw [isCallable, otherIsCallable]
    dsimp only
    rw [callables.arity, same.callDepth]
    split
    · exact together_fail same parens.line _
    split
    · exact together_fail same parens.line _
    refine together_asCall parens.line ?_
    have inside : Machine.Paired lockstep world
        { machine with callDepth := machine.callDepth + 1 }
        { other with callDepth := other.callDepth + 1 } :=
      ⟨same.heap, same.globals, same.distances, congrArg (· + 1) same.callDepth, same.clock,
        same.output⟩
    cases callables with
    | native function => exact together_callNative inside function arguments
    | closure closures => exact together_callClosure executes inside closures arguments
    | ofClass place initializers =>
      exact together_instantiate executes inside place initializers arguments

/-! ## Expressions and statements -/

/-- One more unit of fuel for expressions, by the form of the expression. -/
theorem evaluatesTogether_succ
    (evaluates : EvaluatesTogether lockstep fuel)
    (executes : ExecutesTogether lockstep fuel) :
    EvaluatesTogether lockstep (fuel + 1) := by
  intro position value otherValue world machine other paired abreast
  cases lockstep.value_shape paired with
  | literal value =>
    rw [Eval.evaluate]
    exact together_pure abreast.same rfl
  | grouping values =>
    rw [Eval.evaluate, Eval.evaluate]
    exact evaluates values abreast
  | unary operators rights =>
    rw [Eval.evaluate, Eval.evaluate]
    refine (evaluates rights abreast).bind ?_
    rintro _ value later after otherAfter goesOn rfl
    exact together_applyUnary goesOn.same operators value
  | binary lefts operators rights =>
    rw [Eval.evaluate, Eval.evaluate]
    refine (evaluates lefts abreast).bind ?_
    rintro _ leftValue later after otherAfter goesOn rfl
    refine (evaluates rights (abreast.goOn goesOn)).bind ?_
    rintro _ rightValue last ending otherEnding further rfl
    exact together_applyBinary further.same operators leftValue rightValue
  | logical lefts operators rights =>
    rw [Eval.evaluate, Eval.evaluate]
    refine (evaluates lefts abreast).bind ?_
    rintro _ leftValue later after otherAfter goesOn rfl
    rw [operators.decidedBy]
    split
    · exact together_pure goesOn.same rfl
    · exact evaluates rights (abreast.goOn goesOn)
  | read targets =>
    rw [Eval.evaluate, Eval.evaluate]
    exact together_readVariable abreast targets
  | assign targets values =>
    rw [Eval.evaluate, Eval.evaluate]
    refine (evaluates values abreast).bind ?_
    rintro _ result later after otherAfter goesOn rfl
    refine (together_assignVariable (abreast.goOn goesOn) targets result).bind ?_
    intro _ _ last ending otherEnding further _
    exact together_pure further.same rfl
  | call callees parens values =>
    rw [Eval.evaluate, Eval.evaluate]
    refine (evaluates callees abreast).bind ?_
    rintro _ function later after otherAfter goesOn rfl
    refine (together_each evaluates values (abreast.goOn goesOn)).bind ?_
    rintro _ arguments last ending otherEnding further rfl
    exact together_invoke executes further.same parens function arguments
  | property objects names =>
    rw [Eval.evaluate, Eval.evaluate]
    refine (evaluates objects abreast).bind ?_
    rintro _ value later after otherAfter goesOn rfl
    cases value
    case object receiver => exact together_readProperty goesOn.same names receiver
    all_goals exact together_fail goesOn.same names.line _
  | setProperty objects names values =>
    rw [Eval.evaluate, Eval.evaluate]
    refine (evaluates objects abreast).bind ?_
    rintro _ target later after otherAfter goesOn rfl
    cases target
    case object receiver =>
      refine (evaluates values (abreast.goOn goesOn)).bind ?_
      rintro _ result last ending otherEnding further rfl
      refine (together_setField further.same names receiver result).bind ?_
      intro _ _ _ _ _ set _
      exact together_pure set.same rfl
    all_goals exact together_fail goesOn.same names.line _
  | self keywords =>
    rw [Eval.evaluate, Eval.evaluate]
    exact together_readVariable abreast keywords
  | inherited keywords methods =>
    rw [Eval.evaluate, Eval.evaluate]
    exact together_readInherited abreast keywords methods

/-- One more unit of fuel for statements, by the form of the statement. -/
theorem executesTogether_succ
    (evaluates : EvaluatesTogether lockstep fuel)
    (executes : ExecutesTogether lockstep fuel)
    (repeats : RepeatsTogether lockstep fuel) :
    ExecutesTogether lockstep (fuel + 1) := by
  intro position step otherStep world machine other paired abreast
  cases lockstep.step_shape paired with
  | expression values =>
    rw [Eval.execute, Eval.execute]
    refine (evaluates values abreast).bind ?_
    intro _ _ later after otherAfter goesOn _
    exact together_pure goesOn.same rfl
  | print values =>
    rw [Eval.execute, Eval.execute]
    refine (evaluates values abreast).bind ?_
    rintro _ result later after otherAfter goesOn rfl
    refine (together_printLine goesOn.same result).bind ?_
    intro _ _ last ending otherEnding further _
    exact together_pure further.same rfl
  | declare declares names initializers =>
    rw [Eval.execute, Eval.execute]
    refine (together_optional evaluates initializers abreast).bind ?_
    rintro _ value later after otherAfter goesOn rfl
    refine (together_define (abreast.goOn goesOn) declares names value).bind ?_
    intro _ _ last ending otherEnding further _
    exact together_pure further.same rfl
  | block inside steps =>
    rw [Eval.execute, Eval.execute]
    exact together_get
      (together_sequenceWithin executes abreast.same abreast.aligned inside .empty steps)
  | conditional conditions thenBranches elseBranches =>
    rw [Eval.execute_conditional, Eval.execute_conditional]
    refine (evaluates conditions abreast).bind ?_
    rintro _ tested later after otherAfter goesOn rfl
    have reached := abreast.goOn goesOn
    split
    · exact executes thenBranches reached
    · cases elseBranches with
      | none => exact together_pure goesOn.same rfl
      | some branches => exact executes branches reached
  | loop conditions bodies =>
    rw [Eval.execute, Eval.execute]
    exact repeats conditions bodies abreast
  | function declares keeps functions =>
    rw [Eval.execute, Eval.execute]
    refine (together_declareFunction abreast declares keeps functions).bind ?_
    intro _ _ later after otherAfter goesOn _
    exact together_pure goesOn.same rfl
  | returns keyword otherKeyword values =>
    rw [Eval.execute, Eval.execute]
    refine (together_optional evaluates values abreast).bind ?_
    rintro _ result later after otherAfter goesOn rfl
    exact together_pure goesOn.same rfl
  | classDecl declares names keeps superclasses functions =>
    rw [Eval.execute, Eval.execute]
    refine (together_declareClass abreast declares names keeps superclasses functions).bind ?_
    intro _ _ later after otherAfter goesOn _
    exact together_pure goesOn.same rfl

/-- One more unit of fuel for loops: one round, then the loop with less. -/
theorem repeatsTogether_succ
    (evaluates : EvaluatesTogether lockstep fuel)
    (executes : ExecutesTogether lockstep fuel)
    (repeats : RepeatsTogether lockstep fuel) :
    RepeatsTogether lockstep (fuel + 1) := by
  intro position condition otherCondition body otherBody world machine other conditions bodies
    abreast
  rw [Eval.repeatWhile, Eval.repeatWhile]
  refine (evaluates conditions abreast).bind ?_
  rintro _ tested later after otherAfter goesOn rfl
  have reached := abreast.goOn goesOn
  split
  · refine (executes bodies reached).bind ?_
    rintro _ flow last ending otherEnding further rfl
    cases flow with
    | normal => exact repeats conditions bodies (reached.goOn further)
    | returned value => exact together_pure further.same rfl
  · exact together_pure goesOn.same rfl

/-- Whatever belongs together is evaluated and executed together, whatever the fuel. -/
theorem runsTogether (lockstep : Lockstep) (fuel : Nat) :
    EvaluatesTogether lockstep fuel ∧ ExecutesTogether lockstep fuel ∧
      RepeatsTogether lockstep fuel := by
  induction fuel with
  | zero =>
    refine ⟨?_, ?_, ?_⟩
    · intro _ _ _ _ _ _ _ abreast
      rw [Eval.evaluate, Eval.evaluate]
      exact together_throw abreast.same _
    · intro _ _ _ _ _ _ _ abreast
      rw [Eval.execute, Eval.execute]
      exact together_throw abreast.same _
    · intro _ _ _ _ _ _ _ _ _ _ abreast
      rw [Eval.repeatWhile, Eval.repeatWhile]
      exact together_throw abreast.same _
  | succ fuel inductionHypothesis =>
    obtain ⟨evaluates, executes, repeats⟩ := inductionHypothesis
    exact ⟨evaluatesTogether_succ evaluates executes,
      executesTogether_succ evaluates executes repeats,
      repeatsTogether_succ evaluates executes repeats⟩

end Runs

end TreeWalk
