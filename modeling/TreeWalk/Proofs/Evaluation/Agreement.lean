import TreeWalk.Proofs.Evaluation.Restoration
import TreeWalk.Proofs.Evaluation.Steps

/-!
# Evaluation agrees with name resolution

A task is ready on a machine when the machine is located at a site of its part.  Every
task that a ready task begins is ready too, and evaluation of a ready task leaves a
faithful machine.  That the current scope still agrees with the walk needs no more than
that evaluation makes the heap grow and that a declaration binds its name.
-/

namespace TreeWalk

open Resolution

section Binding

variable {machine after : Machine}

/-- Making a class and assigning it to its name makes the heap grow. -/
theorem grown_makeClass
    {name : Token}
    {place current : ScopeRef}
    {functions : List FunctionDecl}
    {inherited : List (Bindings Closure)} :
    growthInvariant.Judged (Eval.makeClass name functions current place inherited) machine
      fun _ _ => True := by
  have made : growthInvariant.Judged
      (Eval.onHeap (·.newClass ⟨name.lexeme, Eval.methodTable place functions :: inherited⟩))
      machine fun _ _ => True :=
    Regime.judged_onHeap (fun _ => ⟨Heap.grown_newClass _ _, trivial⟩) trivial
  exact made.bind fun _ _ _ _ _ _ =>
    Regime.judged_assignFrom fun _ _ _ => ⟨Heap.grown_define _ _ _ _, trivial⟩

/-- The name of a class is bound before the class is made, and stays bound. -/
theorem binds_declareClassUnder
    {name : Token}
    {functions : List FunctionDecl}
    {parent : Option ClassRef}
    (made : machine.scope.index < machine.heap.scopes.size) :
    growthInvariant.Judged (Eval.declareClassUnder name functions parent) machine fun heap _ =>
      (heap.scope machine.scope).bindings.contains name.lexeme = true := by
  have named : growthInvariant.Judged (Eval.define name.lexeme .null) machine fun _ _ => True :=
    Regime.judged_define fun _ => ⟨Heap.grown_define _ _ _ _, trivial⟩
  refine named.bind fun _ after isNamed _ _ _ => Regime.judged_get ?_
  cases isNamed
  have bound := Heap.contains_define_self machine.heap made name.lexeme name.lexeme .null
  rw [beq_self_eq_true, Bool.true_or] at bound
  have stillMade := Nat.lt_of_lt_of_le made
    (Heap.grows_define machine.heap machine.scope name.lexeme .null).size
  refine (?_ : growthInvariant.Judged _ _ fun _ _ => True).imp fun heap _ grown _ =>
    grown.scopes.names _ _ stillMade bound
  cases parent with
  | none => exact grown_makeClass
  | some parent =>
    have entered : ∀ there, growthInvariant.Judged (Eval.superclassScope machine.scope parent)
        there fun _ _ => True :=
      fun _ => Regime.judged_onHeap (fun _ => ⟨Heap.grown_newScope _ _ _, trivial⟩) trivial
    exact (entered _).bind fun _ _ _ _ _ _ => Regime.judged_get grown_makeClass

/-- A declaration that has been executed has bound its name. -/
theorem Eval.execute_binds
    {fuel : Nat}
    {step : Stmt}
    {name : String}
    {flow : Flow}
    (made : machine.scope.index < machine.heap.scopes.size)
    (declares : step.declaredName? = some name)
    (done : Eval.execute fuel step machine = .ok flow after) :
    (after.heap.scope machine.scope).bindings.contains name = true := by
  have binds : ∀ {heap : Heap} {place : ScopeRef} {value : Value},
      place.index < heap.scopes.size ->
        ((heap.define place name value).scope place).bindings.contains name = true := by
    intro heap place value isMade
    rw [Heap.contains_define_self heap isMade, beq_self_eq_true, Bool.true_or]
  cases fuel with
  | zero =>
    rw [Eval.execute] at done
    cases done
  | succ fuel =>
    cases step with
    | declare declared initializer =>
      cases declares
      rw [Eval.execute, Eval.bind_eq_ok_iff] at done
      obtain ⟨value, middle, first, done⟩ := done
      rw [Eval.bind_eq_ok_iff] at done
      obtain ⟨_, _, isDefined, isDone⟩ := done
      cases isDefined
      cases isDone
      have reached : machine.Resumes middle ∧ machine.heap.Grows middle.heap := by
        cases initializer with
        | none =>
          cases first
          exact ⟨.refl machine, .refl _⟩
        | some present =>
          have ends : (Task.evaluate fuel present).Ends machine middle := .evaluate first
          exact ⟨ends.resumes, ends.grows⟩
      obtain ⟨resumes, grows⟩ := reached
      dsimp only
      rw [resumes.scope]
      exact binds (Nat.lt_of_lt_of_le made grows.size)
    | function declaration =>
      cases declares
      rw [Eval.execute, Eval.bind_eq_ok_iff] at done
      obtain ⟨_, middle, isDeclared, isDone⟩ := done
      cases isDeclared
      cases isDone
      exact binds made
    | classDecl declared superclass functions =>
      cases declares
      rw [Eval.execute, Eval.bind_eq_ok_iff] at done
      obtain ⟨_, middle, isDeclared, isDone⟩ := done
      cases isDone
      cases superclass with
      | none =>
        rw [Eval.declareClass_none] at isDeclared
        exact ((binds_declareClassUnder made).ok trivial isDeclared).2.2.2
      | some reference =>
        rw [Eval.declareClass_some, Eval.bind_eq_ok_iff] at isDeclared
        obtain ⟨parent, there, isParent, isDeclared⟩ := isDeclared
        obtain ⟨-, sameMachine⟩ := Eval.readVariable_of_superclassOf isParent
        subst sameMachine
        exact ((binds_declareClassUnder made).ok trivial isDeclared).2.2.2
    -- No other statement declares a name.
    | _ => cases declares

end Binding

section Agreement

variable {roots : List Site} {machine : Machine} {site : Site}

/-- Declaring a name in the resolver's scopes never makes the list of local scopes empty.
-/
theorem bindDeclared_ne_nil
    {scopes : List (Bindings Binding)}
    {name : Option String}
    (isLocal : scopes ≠ []) :
    bindDeclared name scopes ≠ [] := by
  cases name with
  | none => exact isLocal
  | some name =>
    cases scopes with
    | nil => exact absurd rfl isLocal
    | cons scope outer => simp [bindDeclared, bindName]

/-- What is located stays located, as long as the machine goes on in the same scope. -/
theorem Located.later
    {after : Machine}
    (located : Located roots machine site)
    (faithful : after.Faithful roots)
    (resumes : machine.Resumes after)
    (grows : machine.heap.Grows after.heap) :
    Located roots after site := by
  refine ⟨faithful, ?_, ?_⟩
  · rw [resumes.distances]
    exact located.charted
  · rw [resumes.globals, resumes.scope]
    exact located.agrees.grow grows

/-- Behind a statement, the current scope agrees with the walk there. -/
theorem Located.agrees_behind
    {fuel : Nat}
    {step : Stmt}
    {flow : Flow}
    {after : Machine}
    (part : site.part = .statement step)
    (located : Located roots machine site)
    (done : Eval.execute fuel step machine = .ok flow after) :
    after.heap.Agrees after.globals after.scope site.outcome.scopes := by
  have wellFormed := located.charted.wellFormed
  have ends : (Task.execute fuel step).Ends machine after := .execute done
  have agrees := located.agrees.grow ends.grows
  obtain ⟨around, _, walk⟩ := site
  cases part
  rw [ends.resumes.globals, ends.resumes.scope, Site.outcome,
    scopes_statement around step walk wellFormed]
  cases declares : step.declaredName? with
  | none => exact agrees
  | some name =>
    have made := Heap.Chained.made located.agrees located.faithful.globalsMade
    exact agrees.bindName (Eval.execute_binds made declares done)

/-- After the first of some statements inside of a scope, the machine is located
at the others. -/
theorem located_rest
    {around : Surroundings}
    {walk : Resolution}
    {first : Stmt}
    {rest : List Stmt}
    {fuel : Nat}
    {after : Machine}
    (isLocal : walk.scopes ≠ [])
    (located : Located roots machine ⟨around, .statements (first :: rest), walk⟩)
    (faithful : after.Faithful roots)
    (done : Eval.execute fuel first machine = .ok .normal after) :
    (Resolution.statement around first walk).scopes ≠ [] ∧
      Located roots after
        ⟨around, .statements rest, Resolution.statement around first walk⟩ := by
  have wellFormed := located.charted.wellFormed
  rw [Part.WellFormed, Stmt.AllWellFormed] at wellFormed
  have charted := located.charted.child (List.mem_cons_of_mem _ List.mem_cons_self)
  have ends : (Task.execute fuel first).Ends machine after := .execute done
  refine ⟨?_, faithful, ends.resumes.distances ▸ charted, ?_⟩
  · rw [scopes_statement around first walk wellFormed.1]
    exact bindDeclared_ne_nil isLocal
  · exact (located.child List.mem_cons_self rfl).agrees_behind rfl done

/-- With as many arguments as parameters, every parameter is bound. -/
theorem contains_bindParameters
    {parameters : List Token}
    {arguments : List Value}
    (matching : arguments.length = parameters.length)
    {name : String}
    (defined : (parameterScope parameters).get? name = some .defined) :
    (Eval.bindParameters parameters arguments).contains name = true := by
  have bound : ∀ (parameters : List Token) (arguments : List Value) (scope : Bindings Binding)
      (bindings : Bindings Value), arguments.length = parameters.length ->
      (scope.get? name = some .defined -> bindings.contains name = true) ->
      (parameters.foldl (fun scope parameter => scope.set parameter.lexeme .defined)
        scope).get? name = some .defined ->
      ((parameters.zip arguments).foldl
        (fun bindings entry => bindings.set entry.1.lexeme entry.2) bindings).contains
          name = true := by
    intro parameters
    induction parameters with
    | nil => exact fun _ _ _ _ earlier defined => earlier defined
    | cons first rest inductionHypothesis =>
      intro arguments scope bindings matching earlier defined
      cases arguments with
      | nil => cases matching
      | cons argument others =>
        refine inductionHypothesis others _ _ (Nat.succ.inj matching) ?_ defined
        intro here
        rw [Bindings.contains_set]
        rw [Bindings.get?_set] at here
        by_cases same : name = first.lexeme
        · simp [same]
        · rw [if_neg same] at here
          simp [earlier here]
  exact bound parameters arguments .empty .empty matching (by simp) defined

/-- The distance of an assignment does not lead to the globals. -/
theorem ancestor_ne_globals
    {target : Reference}
    {value : Expr}
    (part : site.part = .expression (.assign target value))
    (located : Located roots machine site)
    (distance : Nat)
    (filed : machine.distances[target.id]? = some distance) :
    machine.heap.ancestor machine.scope distance ≠ machine.globals := by
  obtain ⟨around, _, walk⟩ := site
  cases part
  obtain ⟨root, -, sound, outermost, within, sameFiled⟩ := located.charted
  rw [sameFiled target.id (by simp [Part.ids, Expr.ids])] at filed
  have inRange := (Site.defines_of_assign within sound outermost filed).1
  exact (Heap.Chained.ancestor located.agrees (List.getElem?_eq_getElem inRange)).2.2

/-- A declared name need not be bound. -/
theorem Heap.Agrees.declareName
    {heap : Heap}
    {globals place : ScopeRef}
    {scopes : List (Bindings Binding)}
    (agrees : heap.Agrees globals place scopes)
    (name : String) :
    heap.Agrees globals place (declareName name scopes) := by
  cases agrees with
  | outermost => exact .outermost
  | inside made encloses earlier binds around =>
    rw [Resolution.declareName]
    split
    · exact .inside made encloses earlier binds around
    · refine .inside made encloses earlier (fun other defined => ?_) around
      rw [Bindings.get?_set] at defined
      split at defined
      · cases defined
      · exact binds other defined

/-- In the scope of a call, the machine is located at the body of the
function. -/
theorem located_body
    {closure : Closure}
    {arguments : List Value}
    (faithful : machine.Faithful roots)
    (placed : closure.Placed roots machine [])
    (matching : arguments.length = closure.arity) :
    ∃ inner : Site, inner.part = .statements closure.declaration.body ∧ inner.walk.scopes ≠ [] ∧
      Located roots
        { machine with
          heap := (machine.heap.newScope (some closure.scope)
            (Eval.bindParameters closure.declaration.parameters arguments)).2
          scope := (machine.heap.newScope (some closure.scope)
            (Eval.bindParameters closure.declaration.parameters arguments)).1 } inner := by
  obtain ⟨⟨around, _, walk⟩, outer, charted, part, -, scopes, agrees⟩ := placed
  cases part
  have entered := scopes_enterFunction closure.declaration.parameters walk
  refine ⟨⟨around, .statements closure.declaration.body,
    walk.enterFunction closure.declaration.parameters⟩, rfl, ?_, ?_, ?_, ?_⟩
  · rw [entered]
    exact List.cons_ne_nil _ _
  · exact (faithful_newScope (some closure.scope) _ faithful).of_eq rfl rfl rfl
  · exact charted.child List.mem_cons_self
  · dsimp only at scopes ⊢
    rw [entered, scopes]
    refine Heap.agrees_newScope agrees faithful.globalsMade fun name defined => ?_
    exact contains_bindParameters matching defined

/-- The body of a loop lies in the scopes of the loop. -/
theorem located_loopBody
    {around : Surroundings}
    {walk : Resolution}
    {condition : Expr}
    {body : Stmt}
    (located : Located roots machine ⟨around, .statement (.loop condition body), walk⟩) :
    Located roots machine
      ⟨around, .statement body, Resolution.expression around condition walk⟩ :=
  located.child (List.mem_cons_of_mem _ List.mem_cons_self)
    (stays_expression around condition walk).scopes

/-- The branches of a conditional statement lie in the scopes of the statement. -/
theorem located_branches
    {around : Surroundings}
    {walk : Resolution}
    {condition : Expr}
    {thenBranch : Stmt}
    {elseBranch : Option Stmt}
    (located : Located roots machine
      ⟨around, .statement (.conditional condition thenBranch elseBranch), walk⟩) :
    Located roots machine
        ⟨around, .statement thenBranch, Resolution.expression around condition walk⟩ ∧
      ∀ branch, elseBranch = some branch ->
        ∃ inner : Site, inner.part = .statement branch ∧ Located roots machine inner := by
  have wellFormed := located.charted.wellFormed
  rw [Part.WellFormed, Stmt.WellFormed] at wellFormed
  obtain ⟨-, ⟨thenDeclares, thenForm⟩, -⟩ := wellFormed
  have tested := (stays_expression around condition walk).scopes
  refine ⟨located.child (List.mem_cons_of_mem _ List.mem_cons_self) tested, ?_⟩
  rintro branch rfl
  refine ⟨_, rfl, located.child
    (List.mem_cons_of_mem _ (List.mem_cons_of_mem _ List.mem_cons_self)) ?_⟩
  dsimp only
  rw [scopes_statement around thenBranch _ thenForm, thenDeclares]
  exact tested

/-- The initializer of a variable is walked over where the variable is declared,
which asks nothing of the current scope. -/
theorem located_initializer
    {around : Surroundings}
    {walk : Resolution}
    {name : Token}
    {initializer : Option Expr}
    (located : Located roots machine ⟨around, .statement (.declare name initializer), walk⟩)
    (present : Expr)
    (isPresent : initializer = some present) :
    ∃ inner : Site, inner.part = .expression present ∧ Located roots machine inner := by
  subst isPresent
  refine ⟨_, rfl, located.faithful, located.charted.child List.mem_cons_self, ?_⟩
  dsimp only
  rw [scopes_declare]
  exact located.agrees.declareName name.lexeme

/-- The value of a return statement lies in the scopes of the statement. -/
theorem located_returned
    {around : Surroundings}
    {walk : Resolution}
    {keyword : Token}
    {value : Option Expr}
    (located : Located roots machine ⟨around, .statement (.returns keyword value), walk⟩)
    (present : Expr)
    (isPresent : value = some present) :
    ∃ inner : Site, inner.part = .expression present ∧ Located roots machine inner := by
  subst isPresent
  refine ⟨_, rfl, located.child List.mem_cons_self ?_⟩
  dsimp only
  split <;> rfl

/-- In the scope of a block, the machine is located at its statements. -/
theorem located_block
    {around : Surroundings}
    {walk : Resolution}
    {body : List Stmt}
    (located : Located roots machine ⟨around, .statement (.block body), walk⟩) :
    Located roots
      { machine with
        heap := (machine.heap.newScope (some machine.scope) .empty).2
        scope := (machine.heap.newScope (some machine.scope) .empty).1 }
      ⟨around, .statements body, walk.enter .empty⟩ := by
  refine ⟨?_, located.charted.child List.mem_cons_self, ?_⟩
  · exact (faithful_newScope (some machine.scope) .empty located.faithful).of_eq rfl rfl rfl
  · exact Heap.agrees_newScope located.agrees located.faithful.globalsMade (by simp)

/-! ## Ready tasks -/

/-- A machine on which a task may begin: it is located at a site of the part that
the task is about.  While a superclass is read, the name of its class is not bound
yet. -/
def Task.Ready (roots : List Site) (machine : Machine) : Task -> Prop
  | .evaluate _ value => ∃ site, site.part = .expression value ∧ Located roots machine site
  | .each _ values => ∃ site, site.part = .expressions values ∧ Located roots machine site
  | .store target value =>
    ∃ site, site.part = .expression (.assign target value) ∧ Located roots machine site
  | .execute _ step => ∃ site, site.part = .statement step ∧ Located roots machine site
  | .sequence _ steps =>
    ∃ site, site.part = .statements steps ∧ site.walk.scopes ≠ [] ∧ Located roots machine site
  | .repeatWhile _ condition body =>
    ∃ site, site.part = .statement (.loop condition body) ∧ Located roots machine site
  | .superclass name reference =>
    ∃ site outer, site.part = .superclass reference ∧
      reference.name.lexeme ≠ name.lexeme ∧ site.walk.scopes = bindName name.lexeme outer ∧
      machine.Faithful roots ∧ Charted roots machine.distances site ∧
      machine.heap.Agrees machine.globals machine.scope outer
  | .invoke _ _ _ _ => machine.Faithful roots
  | .call _ arguments callable =>
    machine.Faithful roots ∧ arguments.length = callable.arity ∧
      ∃ callee, machine.heap.callable? callee = some callable
  | .callClosure _ closure arguments =>
    machine.Faithful roots ∧ closure.Placed roots machine [] ∧ arguments.length = closure.arity

/-- A class whose walk finds no error does not name itself as its superclass. -/
theorem superclass_ne
    {site : Site}
    {name : Token}
    {reference : Reference}
    {functions : List FunctionDecl}
    (part : site.part = .statement (.classDecl name (some reference) functions))
    (sound : site.Sound) :
    reference.name.lexeme ≠ name.lexeme := by
  intro same
  obtain ⟨around, _, walk⟩ := site
  cases part
  have noErrors := (sound.child List.mem_cons_self).noErrors
  dsimp only at noErrors
  rw [checkSuperclass, if_pos same, report] at noErrors
  simp at noErrors

/-- The read of a superclass is ready wherever its class declaration is located. -/
theorem ready_superclass
    {site : Site}
    {name : Token}
    {reference : Reference}
    {functions : List FunctionDecl}
    (part : site.part = .statement (.classDecl name (some reference) functions))
    (located : Located roots machine site) :
    (Task.superclass name reference).Ready roots machine := by
  have different := superclass_ne part located.charted.sound
  obtain ⟨around, _, walk⟩ := site
  cases part
  refine ⟨_, walk.scopes, rfl, different, ?_, located.faithful,
    located.charted.child List.mem_cons_self, located.agrees⟩
  dsimp only
  rw [checkSuperclass, if_neg different, scopes_bind]

/-- What can be called is ready to be called. -/
theorem ready_call
    {fuel : Nat}
    {callable : Callable}
    {arguments : List Value}
    {inner : Task}
    {final : Machine}
    (ready : (Task.call fuel arguments callable).Ready roots machine)
    (begins : Begins (.call fuel arguments callable) machine inner final) :
    inner.Ready roots final := by
  obtain ⟨faithful, matching, callee, found⟩ := ready
  cases callee <;> simp only [Heap.callable?, Option.map_eq_some_iff, reduceCtorEq] at found
  case native place =>
    obtain ⟨native, -, rfl⟩ := found
    cases begins
  case function place =>
    obtain ⟨closure, isFunction, rfl⟩ := found
    cases begins with
    | callFunction => exact ⟨faithful, faithful.functions place closure isFunction, matching⟩
  case classObject place =>
    obtain ⟨ofClass, isClass, isCallable⟩ := found
    cases begins with
    | callFunction => cases isCallable
    | @setUp _ _ place method =>
      injection isCallable with samePlace isMethod
      subst samePlace
      have inClass : machine.heap.method? place initializerName = some method := by
        rw [Heap.method?, isClass]
        exact isMethod
      have made := faithful_newInstance place faithful
      have unbound : method.Placed roots
          { machine with heap := (machine.heap.newInstance place).2 } [receiverScope] :=
        (placed_method faithful inClass).advance (.of_scopes_eq rfl) rfl rfl
      refine ⟨faithful_newScope _ _ made, ?_, matching⟩
      exact placed_bindMethod _ made unbound

/-- Whatever a ready task begins is ready, if the machine there is faithful. -/
theorem Begins.ready
    {task inner : Task}
    {final : Machine}
    (begins : Begins task machine inner final)
    (ready : task.Ready roots machine)
    (faithful : final.Faithful roots) :
    inner.Ready roots final := by
  -- A task that enters no scope is begun where the outer one is carried out.
  have stays : ∀ {site}, ¬ Enters task machine inner final -> Located roots machine site ->
      Located roots final site := by
    intro site noEntry located
    have getsTo := begins.getsTo_or_enters.resolve_right noEntry
    exact located.later faithful getsTo.resumes getsTo.grows
  cases begins with
  | grouping | unary | binaryLeft | logicalLeft | assigned | callee | object | firstOfEach =>
    obtain ⟨⟨around, _, walk⟩, ⟨⟩, located⟩ := ready
    exact ⟨_, rfl, located.inExpression rfl List.mem_cons_self⟩
  | changedObject =>
    obtain ⟨⟨around, _, walk⟩, ⟨⟩, located⟩ := ready
    exact ⟨_, rfl, located.inExpression rfl (List.mem_cons_of_mem _ List.mem_cons_self)⟩
  | binaryRight | logicalRight | arguments | restOfEach =>
    obtain ⟨⟨around, _, walk⟩, ⟨⟩, located⟩ := ready
    have second := located.inExpression rfl (List.mem_cons_of_mem _ List.mem_cons_self)
    exact ⟨_, rfl, stays nofun second⟩
  | fieldValue =>
    obtain ⟨⟨around, _, walk⟩, ⟨⟩, located⟩ := ready
    exact ⟨_, rfl, stays nofun (located.inExpression rfl List.mem_cons_self)⟩
  | store =>
    obtain ⟨⟨around, _, walk⟩, ⟨⟩, located⟩ := ready
    exact ⟨_, rfl, stays nofun located⟩
  | invoke => exact faithful
  | expression | print | condition =>
    obtain ⟨⟨around, _, walk⟩, ⟨⟩, located⟩ := ready
    exact ⟨_, rfl, located.child List.mem_cons_self rfl⟩
  | initializer =>
    obtain ⟨⟨around, _, walk⟩, ⟨⟩, located⟩ := ready
    exact located_initializer located _ rfl
  | block =>
    obtain ⟨⟨around, _, walk⟩, ⟨⟩, located⟩ := ready
    exact ⟨_, rfl, List.cons_ne_nil _ _, located_block located⟩
  | thenBranch =>
    obtain ⟨⟨around, _, walk⟩, ⟨⟩, located⟩ := ready
    exact ⟨_, rfl, stays nofun (located_branches located).1⟩
  | elseBranch =>
    obtain ⟨⟨around, _, walk⟩, ⟨⟩, located⟩ := ready
    obtain ⟨site, part, atBranch⟩ := (located_branches located).2 _ rfl
    exact ⟨site, part, stays nofun atBranch⟩
  | loop => exact ready
  | returned =>
    obtain ⟨⟨around, _, walk⟩, ⟨⟩, located⟩ := ready
    exact located_returned located _ rfl
  | superclass =>
    obtain ⟨site, part, located⟩ := ready
    exact ready_superclass part located
  | firstOfSequence =>
    obtain ⟨⟨around, _, walk⟩, ⟨⟩, isLocal, located⟩ := ready
    exact ⟨_, rfl, located.child List.mem_cons_self rfl⟩
  | restOfSequence done =>
    obtain ⟨⟨around, _, walk⟩, ⟨⟩, isLocal, located⟩ := ready
    obtain ⟨stillLocal, rest⟩ := located_rest isLocal located faithful done
    exact ⟨_, rfl, stillLocal, rest⟩
  | loopCondition =>
    obtain ⟨⟨around, _, walk⟩, ⟨⟩, located⟩ := ready
    exact ⟨_, rfl, located.child List.mem_cons_self rfl⟩
  | loopBody =>
    obtain ⟨⟨around, _, walk⟩, ⟨⟩, located⟩ := ready
    exact ⟨_, rfl, stays nofun (located_loopBody located)⟩
  | loopAgain =>
    obtain ⟨⟨around, _, walk⟩, ⟨⟩, located⟩ := ready
    exact ⟨_, rfl, stays nofun located⟩
  | call found matching => exact ⟨faithful, matching, _, found⟩
  | callFunction => exact ready_call ready .callFunction
  | setUp => exact ready_call ready .setUp
  | body =>
    obtain ⟨before, placed, matching⟩ := ready
    exact located_body before placed matching

/-! ## Evaluation -/

/-- A statement that declares a name outside of all scopes declares one that may be new
there. -/
def Task.DeclaresOnly (mayBe : String -> Prop) (machine : Machine) : Task -> Prop
  | .execute _ step =>
    machine.scope = machine.globals -> ∀ name, step.declaredName? = some name -> mayBe name
  | _ => True

/-- Inside of a task, no name is declared outside of all scopes. -/
theorem Begins.declaresOnly
    {task inner : Task}
    {final : Machine}
    (mayBe : String -> Prop)
    (begins : Begins task machine inner final)
    (ready : task.Ready roots machine) :
    inner.DeclaresOnly mayBe final := by
  have nothing : ∀ {step : Stmt}, step.declaredName? = none ->
      (Task.execute 0 step).DeclaresOnly mayBe final := by
    intro step declares _ name isDeclared
    cases declares.symm.trans isDeclared
  cases begins with
  | thenBranch =>
    obtain ⟨⟨around, _, walk⟩, ⟨⟩, located⟩ := ready
    have wellFormed := located.charted.wellFormed
    rw [Part.WellFormed, Stmt.WellFormed] at wellFormed
    exact nothing wellFormed.2.1.1
  | elseBranch =>
    obtain ⟨⟨around, _, walk⟩, ⟨⟩, located⟩ := ready
    have wellFormed := located.charted.wellFormed
    rw [Part.WellFormed, Stmt.WellFormed, Stmt.OptionWellFormed] at wellFormed
    exact nothing wellFormed.2.2.1
  | loopBody =>
    obtain ⟨⟨around, _, walk⟩, ⟨⟩, located⟩ := ready
    have wellFormed := located.charted.wellFormed
    rw [Part.WellFormed, Stmt.WellFormed] at wellFormed
    exact nothing wellFormed.2.1
  | firstOfSequence =>
    obtain ⟨⟨around, _, walk⟩, ⟨⟩, isLocal, located⟩ := ready
    intro isGlobal
    have depth := Heap.Chained.globals_le located.agrees
    rw [isGlobal] at depth
    exact absurd (List.eq_nil_of_length_eq_zero (by omega)) isLocal
  | _ => trivial

/-- Of the names that a scope binds, only some that may be are new. -/
def Heap.AddsOnly (mayBe : String -> Prop) (place : ScopeRef) (before after : Heap) : Prop :=
  ∀ name, (after.scope place).bindings.contains name = true ->
    (before.scope place).bindings.contains name = true ∨ mayBe name

section AddsOnly

variable {heap : Heap} {mayBe : String -> Prop} {globals : ScopeRef}

/-- A new scope binds nothing in the table, so no name is added there. -/
theorem Heap.addsOnly_newScope
    (globalsMade : globals.index < heap.scopes.size)
    (enclosing : Option ScopeRef)
    (bindings : Bindings Value) :
    heap.AddsOnly mayBe globals (heap.newScope enclosing bindings).2 := by
  intro name bound
  rw [Heap.scope_newScope_of_lt _ _ _ globalsMade] at bound
  exact .inl bound

/-- A name is bound in another scope, or it is not new, or it may be. -/
theorem Heap.addsOnly_define
    (globalsMade : globals.index < heap.scopes.size)
    {place : ScopeRef}
    {name : String}
    (value : Value)
    (allowed : place = globals ->
      (heap.scope globals).bindings.contains name = true ∨ mayBe name) :
    heap.AddsOnly mayBe globals (heap.define place name value) := by
  intro other bound
  by_cases isGlobal : place = globals
  · subst isGlobal
    rw [Heap.contains_define_self _ globalsMade, Bool.or_eq_true, beq_iff_eq] at bound
    rcases bound with rfl | known
    · exact allowed rfl
    · exact .inl known
  · rw [Heap.scope_define_of_ne _ _ _ (Ne.symm isGlobal)] at bound
    exact .inl bound

end AddsOnly

/-- Where a class with a superclass is made, the scope that binds the superclass agrees
with that of the walk. -/
theorem Machine.agrees_subclassHeap
    {scopes : List (Bindings Binding)}
    (agrees : machine.heap.Agrees machine.globals machine.scope scopes)
    (globalsMade : machine.globals.index < machine.heap.scopes.size)
    (name : Token)
    (parent : ClassRef) :
    (machine.subclassHeap name parent).Agrees machine.globals ⟨machine.heap.scopes.size⟩
      (Bindings.empty.set superclassName .defined :: bindName name.lexeme scopes) := by
  have named := Heap.agrees_define agrees name.lexeme .null
  have stillMade : machine.globals.index < (machine.namingHeap name).scopes.size := by
    rw [Machine.namingHeap, Heap.size_define]
    exact globalsMade
  have place : (⟨machine.heap.scopes.size⟩ : ScopeRef) =
      ((machine.namingHeap name).newScope (some machine.scope)
        (Bindings.empty.set superclassName (.classObject parent))).1 := by
    rw [Machine.namingHeap, Heap.newScope, Heap.size_define]
  rw [place]
  refine Heap.agrees_newScope named stillMade fun other defined => ?_
  rw [Bindings.get?_set] at defined
  by_cases same : other = superclassName
  · simp [same, Bindings.contains]
  · simp [same] at defined

/-- Machines that are faithful to some programs, with the same globals and distances
throughout. -/
def faithfulRegime
    (roots : List Site)
    (mayBe : String -> Prop)
    (globals : ScopeRef)
    (distances : Distances) : Regime where
  sound machine := machine.Faithful roots ∧ machine.globals = globals ∧
    machine.distances = distances
  leads := Heap.AddsOnly mayBe globals
  sound_of_eq := fun ⟨faithful, atGlobals, filed⟩ heap sameGlobals sameDistances _ =>
    ⟨faithful.of_eq heap sameGlobals sameDistances, sameGlobals.trans atGlobals,
      sameDistances.trans filed⟩
  leads_refl _ _ := .inl
  leads_trans one other name bound := (other name bound).elim (one name) .inr

section Allowed

variable {mayBe : String -> Prop} {globals : ScopeRef} {distances : Distances}

/-- Making a scope keeps a machine faithful: closures and scopes that exist stay where
they were placed. -/
theorem allows_newScope
    (enclosing : Option ScopeRef)
    (bindings : Bindings Value) :
    (faithfulRegime roots mayBe globals distances).Allows machine
      (machine.heap.newScope enclosing bindings).2 := by
  rintro ⟨faithful, rfl, rfl⟩
  exact ⟨Heap.addsOnly_newScope faithful.globalsMade _ _, faithful_newScope _ _ faithful, rfl, rfl⟩

/-- Binding a name keeps a machine faithful, if at the table the name is bound already or
is one of those that may be. -/
theorem allows_define
    {place : ScopeRef}
    {name : String}
    (value : Value)
    (allowed : machine.Faithful roots -> place = machine.globals ->
      (machine.heap.scope place).bindings.contains name = true ∨ mayBe name) :
    (faithfulRegime roots mayBe globals distances).Allows machine
      (machine.heap.define place name value) := by
  rintro ⟨faithful, rfl, rfl⟩
  refine ⟨Heap.addsOnly_define faithful.globalsMade value fun isGlobal => ?_,
    faithful_define _ _ _ faithful, rfl, rfl⟩
  exact isGlobal ▸ allowed faithful isGlobal

/-- Making and binding the closure of a located declaration keeps a machine faithful: the
closure is placed at the site of that declaration. -/
theorem allows_newFunction
    {declaration : FunctionDecl}
    (part : site.part = .statement (.function declaration))
    (located : Located roots machine site)
    (declares : machine.scope = machine.globals -> mayBe declaration.name.lexeme) :
    (faithfulRegime roots mayBe globals distances).Allows machine
      ((machine.heap.newFunction ⟨declaration, machine.scope, false⟩).2.define machine.scope
        declaration.name.lexeme (.function ⟨machine.heap.functions.size⟩)) := by
  rintro ⟨faithful, rfl, rfl⟩
  obtain ⟨around, _, walk⟩ := site
  cases part
  have named := Heap.agrees_define located.agrees declaration.name.lexeme
    (.function ⟨machine.heap.functions.size⟩)
  have defined := faithful_define machine.scope declaration.name.lexeme
    (.function ⟨machine.heap.functions.size⟩) faithful
  have isChild : ⟨{ around with functionKind := .function }, .function declaration,
      (walk.declare declaration.name.lexeme).define declaration.name.lexeme⟩ ∈
        Site.children ⟨around, .statement (.function declaration), walk⟩ := by
    simp [Site.children, Site.inStatement]
  -- The name is bound after the function is made, but neither step sees the other.
  have placed : Closure.Placed roots
      { machine with
        heap := machine.heap.define machine.scope declaration.name.lexeme
          (.function ⟨machine.heap.functions.size⟩) }
      ⟨declaration, machine.scope, false⟩ [] :=
    ⟨_, _, located.charted.child isChild, rfl, by simp, scopes_bind _ walk, named⟩
  exact ⟨Heap.addsOnly_define faithful.globalsMade _ fun isGlobal => .inr (declares isGlobal),
    faithful_newFunction defined placed, rfl, rfl⟩

/-- Making and binding a class keeps a machine faithful when each of its methods is placed
at its site and each inherited table already was. -/
theorem allows_newClass
    {name : String}
    {place : ScopeRef}
    {functions : List FunctionDecl}
    {inherited : List (Bindings Closure)}
    {walk : Resolution}
    {around : Surroundings}
    {outer : List (Bindings Binding)}
    (charted : Charted roots machine.distances ⟨around, .methods functions, walk⟩)
    (scopes : walk.scopes = receiverScope :: outer)
    (agrees : machine.heap.Agrees machine.globals place outer)
    (known : ∀ table ∈ inherited, ∃ parent found,
      machine.heap.class? parent = some found ∧ table ∈ found.lineage) :
    (faithfulRegime roots mayBe globals distances).Allows machine
      (machine.heap.newClass ⟨name, Eval.methodTable place functions :: inherited⟩).2 := by
  rintro ⟨faithful, sameGlobals, sameDistances⟩
  refine ⟨fun _ => .inl, faithful_newClass faithful ?_, sameGlobals, sameDistances⟩
  refine List.forall_mem_cons.mpr ⟨placed_methodTable charted scopes agrees, ?_⟩
  intro table member
  obtain ⟨parent, found, isClass, inLineage⟩ := known table member
  exact faithful.methods parent found isClass table inLineage

end Allowed

/-- Evaluation of what is ready keeps a machine faithful, and declares no names outside of
all scopes but those that it may. -/
def faithfulInvariant
    (roots : List Site)
    (mayBe : String -> Prop)
    (globals : ScopeRef)
    (distances : Distances) : Invariant where
  toRegime := faithfulRegime roots mayBe globals distances
  admits task machine := task.Ready roots machine ∧ task.DeclaresOnly mayBe machine
  admits_begun := fun ⟨ready, _⟩ begins _ sound _ _ =>
    ⟨begins.ready ready sound.1, begins.declaresOnly mayBe ready⟩
  allows_fetched := by
    rintro task before machine method receiver - fetches ⟨faithful, rfl, rfl⟩
    obtain ⟨place, name, isMethod⟩ := fetches.method
    have entered : Machine.Faithful roots
        { machine with heap := (machine.heap.bindMethod method receiver).2 } :=
      faithful_newScope _ _ faithful
    have bound := placed_bindMethod receiver faithful (placed_method faithful isMethod)
    exact ⟨Heap.addsOnly_newScope faithful.globalsMade _ _, faithful_newFunction entered bound,
      rfl, rfl⟩
  allows_stored := by
    rintro machine target value result place ⟨⟨site, part, located⟩, -⟩ _ found
    refine allows_define result fun _ isGlobal => .inl ?_
    rw [Machine.binder?] at found
    split at found
    · rename_i distance filed
      cases found
      exact absurd isGlobal (ancestor_ne_globals part located distance filed)
    · exact Heap.contains_of_binder? found
  allows_field receiver name _ := by
    rintro ⟨faithful, rfl, rfl⟩
    exact ⟨fun _ => .inl, faithful_setField _ _ _ faithful, rfl, rfl⟩
  allows_declared := by
    rintro fuel name initializer before machine value ⟨-, declares⟩ resumes _ _
    refine allows_define value fun _ isGlobal => .inr (declares ?_ _ rfl)
    rw [← resumes.scope, isGlobal, resumes.globals]
  allows_function := by
    rintro fuel declaration machine ⟨⟨site, part, located⟩, declares⟩
    exact allows_newFunction part located fun isGlobal => declares isGlobal _ rfl
  allows_className := by
    rintro fuel name superclass functions before machine place value ⟨-, declares⟩ resumes _ _
      isPlace
    refine allows_define value fun _ isGlobal => ?_
    rcases isPlace with rfl | found
    · refine .inr (declares ?_ _ rfl)
      rw [← resumes.scope, isGlobal, resumes.globals]
    · exact .inl (Heap.contains_of_binder? found)
  allows_superclass _ _ _ := allows_newScope _ _
  allows_plainClass := by
    rintro fuel name functions machine ⟨⟨⟨around, _, walk⟩, ⟨⟩, located⟩, -⟩ _
    refine allows_newClass (located.charted.child List.mem_cons_self) ?_
      (Heap.agrees_define located.agrees name.lexeme .null) nofun
    rw [← scopes_bind]
    rfl
  allows_subclass := by
    rintro fuel name reference functions machine parent
      ⟨⟨⟨around, _, walk⟩, ⟨⟩, located⟩, -⟩ _ _
    have charted := located.charted.child (List.mem_cons_of_mem _ List.mem_cons_self)
    refine allows_newClass charted ?_
      (Machine.agrees_subclassHeap located.agrees located.faithful.globalsMade name parent) ?_
    · dsimp only [enter]
      rw [scopes_enterSubclass, scopes_bind]
      rfl
    · intro table member
      obtain ⟨found, isClass, inLineage⟩ := Heap.class?_of_mem_lineage member
      exact ⟨_, found, isClass, inLineage⟩
  allows_block _ := allows_newScope _ _
  allows_parameters _ _ := allows_newScope _ _
  allows_instance _ := by
    rintro ⟨faithful, rfl, rfl⟩
    exact ⟨fun _ => .inl, faithful_newInstance _ faithful, rfl, rfl⟩
  allows_receiver _ _ := allows_newScope _ _

end Agreement

end TreeWalk
