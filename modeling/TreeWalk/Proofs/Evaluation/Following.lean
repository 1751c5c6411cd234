import TreeWalk.Proofs.Evaluation.Agreement

/-!
# Evaluation follows the walk of name resolution

Every task that a ready task visits is ready too, so wherever evaluation gets, it is at
a site of name resolution and its scopes agree with those of the walk.
-/

namespace TreeWalk

open Resolution

section Following

variable {roots : List Site} {machine : Machine}

/-- A machine on which a task is ready is faithful. -/
theorem Task.Ready.faithful
    {task : Task}
    (ready : task.Ready roots machine) :
    machine.Faithful roots := by
  cases task with
  | evaluate | each | store | execute | repeatWhile =>
    obtain ⟨site, -, located⟩ := ready
    exact located.faithful
  | sequence =>
    obtain ⟨site, -, -, located⟩ := ready
    exact located.faithful
  | superclass =>
    obtain ⟨site, outer, -, -, -, faithful, -⟩ := ready
    exact faithful
  | invoke => exact ready
  | call | callClosure => exact ready.1

/-- Whatever a ready task gets to is ready. -/
theorem Task.Visits.ready
    {task inner : Task}
    {final : Machine}
    (visits : task.Visits machine inner final)
    (ready : task.Ready roots machine) :
    inner.Ready roots final := by
  have declares : task.DeclaresOnly (fun _ => True) machine := by
    cases task with
    | execute => exact fun _ _ _ => trivial
    | _ => trivial
  obtain ⟨-, -, ⟨innerReady, -⟩, -⟩ :=
    (faithfulInvariant roots (fun _ => True) machine.globals machine.distances).visited visits
      ⟨ready, declares⟩ (task.passes_of_forall fun _ => trivial) ⟨ready.faithful, rfl, rfl⟩
  exact innerReady

namespace Task

/-- The part of the program that a task is about. -/
def part? : Task -> Option Part
  | .evaluate _ value => some (.expression value)
  | .each _ values => some (.expressions values)
  | .store target value => some (.expression (.assign target value))
  | .execute _ step => some (.statement step)
  | .sequence _ steps => some (.statements steps)
  | .repeatWhile _ condition body => some (.statement (.loop condition body))
  | .superclass _ reference => some (.superclass reference)
  | .invoke _ _ _ _ => none
  | .call _ _ _ => none
  | .callClosure _ _ _ => none

/-- The reference that a task looks up if it has a distance, and the name that it
looks up there. -/
def access? : Task -> Option (Reference × String)
  | .evaluate _ (.read target) => some (target, target.name.lexeme)
  | .evaluate _ (.self keyword) => some (keyword, keyword.name.lexeme)
  | .evaluate _ (.inherited keyword _) => some (keyword, superclassName)
  | .superclass _ reference => some (reference, reference.name.lexeme)
  | .store target _ => some (target, target.name.lexeme)
  | _ => none

/-- The name that a task has yet to bind, though name resolution has it defined:
a class is bound to its name once its superclass has been read. -/
def pending? : Task -> Option String
  | .superclass name _ => some name.lexeme
  | _ => none

/-- Whether a task is an assignment. -/
def isStore : Task -> Bool
  | .store _ _ => true
  | _ => false

/-- A task on a machine follows the walk over a program at a site.  The chain of
the current scope has one scope for each scope of the walk before it gets to the
globals, and these bind the names that are defined there.  So a distance leads
to a scope that binds the name, unless it is that of an assignment in the
initializer of the very variable.  Just inside of the scope of a superclass there
is that of the receiver. -/
structure Follows
    (task : Task)
    (machine : Machine)
    (root site : Site)
    (places : List ScopeRef) : Prop where
  chain : machine.heap.chain machine.scope = places ++ [machine.globals]
  depth : places.length = site.walk.scopes.length
  names : ∀ distance name, Defines site.walk.scopes name distance ->
    (distance = 0 ∧ task.pending? = some name) ∨
      ∃ place, places[distance]? = some place ∧
        (machine.heap.scope place).bindings.contains name = true
  reaches : ∀ reference name distance, task.access? = some (reference, name) ->
    machine.distances[reference.id]? = some distance ->
    places[distance]? = some (machine.heap.ancestor machine.scope distance)
  finds : ∀ reference name distance, task.access? = some (reference, name) ->
    machine.distances[reference.id]? = some distance ->
    (task.isStore = true ∧ Site.InInitializer root name site) ∨
      (machine.heap.scope (machine.heap.ancestor machine.scope distance)).bindings.contains
        name = true
  receiver : ∀ fuel keyword method distance, task = .evaluate fuel (.inherited keyword method) ->
    machine.distances[keyword.id]? = some distance ->
    0 < distance ∧
      (machine.heap.scope (machine.heap.ancestor machine.scope (distance - 1))).bindings.contains
        selfName = true

end Task

/-- A name that is defined at a distance is in one of the scopes. -/
theorem lt_length_of_defines
    {scopes : List (Bindings Binding)}
    {name : String}
    {distance : Nat}
    (defines : Defines scopes name distance) :
    distance < scopes.length := by
  obtain ⟨scope, found, -⟩ := defines
  exact (List.getElem?_eq_some_iff.mp found).1

/-- Binding a name adds at most that name, in the innermost scope. -/
theorem defines_of_bindName
    {scopes : List (Bindings Binding)}
    {bound name : String}
    {distance : Nat}
    (defines : Defines (bindName bound scopes) name distance) :
    (distance = 0 ∧ bound = name) ∨ Defines scopes name distance := by
  cases scopes with
  | nil => exact .inr defines
  | cons scope outer =>
    cases distance with
    | succ distance => exact .inr defines
    | zero =>
      obtain ⟨found, isFound, defined⟩ := defines
      cases isFound
      rw [Bindings.get?_set] at defined
      split at defined
      · rename_i same
        exact .inl ⟨rfl, same.symm⟩
      · exact .inr ⟨scope, rfl, defined⟩

/-- What a task that follows the walk needs to know: the current scope agrees with
the scopes of the walk, apart from a name that is still to be bound, and the
distances lead to names that are defined. -/
theorem follows_of_agrees
    {task : Task}
    {root site : Site}
    {bound : List (Bindings Binding)}
    (faithful : machine.Faithful roots)
    (agrees : machine.heap.Agrees machine.globals machine.scope bound)
    (sameDepth : bound.length = site.walk.scopes.length)
    (defined : ∀ distance name, Defines site.walk.scopes name distance ->
      (distance = 0 ∧ task.pending? = some name) ∨ Defines bound name distance)
    (accesses : ∀ reference name distance, task.access? = some (reference, name) ->
      machine.distances[reference.id]? = some distance ->
      distance < bound.length ∧
        ((task.isStore = true ∧ Site.InInitializer root name site) ∨ Defines bound name distance))
    (receiver : ∀ fuel keyword method distance,
      task = .evaluate fuel (.inherited keyword method) ->
      machine.distances[keyword.id]? = some distance ->
      0 < distance ∧ Defines bound selfName (distance - 1)) :
    ∃ places, task.Follows machine root site places := by
  obtain ⟨places, chain, length, positions⟩ := Heap.Chained.chain_eq agrees faithful.outermost
  refine ⟨places, chain, length.trans sameDepth, ?_, ?_, ?_, ?_⟩
  · intro distance name defines
    rcases defined distance name defines with isPending | isBound
    · exact .inl isPending
    · exact .inr ⟨_, positions distance (lt_length_of_defines isBound), agrees.contains isBound⟩
  · intro reference name distance accessed filed
    exact positions distance (accesses reference name distance accessed filed).1
  · intro reference name distance accessed filed
    exact (accesses reference name distance accessed filed).2.imp_right agrees.contains
  · intro fuel keyword method distance same filed
    obtain ⟨positive, selfDefined⟩ := receiver fuel keyword method distance same filed
    exact ⟨positive, agrees.contains selfDefined⟩

section Accesses

variable {root site : Site} {distances : Distances} {task : Task} {distance : Nat}

/-- What a task looks up at a distance is defined there, if it is not assigned to
in its own initializer. -/
theorem defines_of_access
    {reference : Reference}
    {name : String}
    (charts : root.Charts distances site)
    (part : task.part? = some site.part)
    (accessed : task.access? = some (reference, name))
    (filed : distances[reference.id]? = some distance) :
    distance < site.walk.scopes.length ∧
      ((task.isStore = true ∧ Site.InInitializer root name site) ∨
        Defines site.walk.scopes name distance) := by
  obtain ⟨sound, outermost, within, sameFiled⟩ := charts
  obtain ⟨around, _, walk⟩ := site
  have isDefined : ∀ {other : String} {excused : Prop}, Defines walk.scopes other distance ->
      distance < walk.scopes.length ∧ (excused ∨ Defines walk.scopes other distance) :=
    fun defines => ⟨lt_length_of_defines defines, .inr defines⟩
  cases task with
  | evaluate fuel value =>
    cases part
    cases value with
    | read target =>
      cases accessed
      rw [sameFiled reference.id (by simp [Part.ids, Expr.ids])] at filed
      exact isDefined (Site.defines_of_read within sound outermost filed)
    | self keyword =>
      cases accessed
      rw [sameFiled reference.id (by simp [Part.ids, Expr.ids])] at filed
      have spelled := (within.sound sound).wellFormed
      rw [Part.WellFormed, Expr.WellFormed] at spelled
      rw [spelled]
      exact isDefined (Site.defines_of_self within sound outermost filed)
    | inherited keyword method =>
      cases accessed
      rw [sameFiled reference.id (by simp [Part.ids, Expr.ids])] at filed
      exact isDefined (Site.defines_of_inherited within sound outermost filed).1
    | _ => cases accessed
  | store target value =>
    cases part
    cases accessed
    rw [sameFiled reference.id (by simp [Part.ids, Expr.ids])] at filed
    obtain ⟨inRange, defines | inside⟩ := Site.defines_of_assign within sound outermost filed
    · exact ⟨inRange, .inr defines⟩
    · exact ⟨inRange, .inl ⟨rfl, inside⟩⟩
  | superclass ownName superclass =>
    cases part
    cases accessed
    rw [sameFiled reference.id (by simp [Part.ids])] at filed
    exact isDefined (Site.defines_of_superclass within sound outermost filed)
  | _ => cases accessed

/-- Where a super access is filed at a distance, its receiver is bound one scope further
in. -/
theorem defines_of_receiver
    {fuel : Nat}
    {keyword : Reference}
    {method : Token}
    (charts : root.Charts distances site)
    (part : (Task.evaluate fuel (.inherited keyword method)).part? = some site.part)
    (filed : distances[keyword.id]? = some distance) :
    0 < distance ∧ Defines site.walk.scopes selfName (distance - 1) := by
  obtain ⟨sound, outermost, within, sameFiled⟩ := charts
  obtain ⟨around, _, walk⟩ := site
  cases part
  rw [sameFiled keyword.id (by simp [Part.ids, Expr.ids])] at filed
  exact (Site.defines_of_inherited within sound outermost filed).2

end Accesses

/-- A task at a located site follows the walk there. -/
theorem Located.follows
    {task : Task}
    {site : Site}
    (located : Located roots machine site)
    (part : task.part? = some site.part) :
    ∃ root ∈ roots, root.Within site ∧ ∃ places, task.Follows machine root site places := by
  obtain ⟨root, member, charts⟩ := located.charted
  refine ⟨root, member, charts.within, ?_⟩
  refine follows_of_agrees located.faithful located.agrees rfl (fun _ _ => .inr) ?_ ?_
  · exact fun _ _ _ => defines_of_access charts part
  · rintro fuel keyword method distance rfl filed
    exact defines_of_receiver charts part filed

/-- While a superclass is read, only the name of its class is not bound yet, and
this is not the name of the superclass. -/
theorem follows_superclass
    {name : Token}
    {reference : Reference}
    (ready : (Task.superclass name reference).Ready roots machine) :
    ∃ root ∈ roots, ∃ site, root.Within site ∧ site.part = .superclass reference ∧
      ∃ places, (Task.superclass name reference).Follows machine root site places := by
  obtain ⟨site, outer, part, different, scopes, faithful, ⟨root, member, charts⟩, agrees⟩ := ready
  have sameDepth : outer.length = site.walk.scopes.length := by
    rw [scopes]
    cases outer <;> rfl
  have defined : ∀ other distance, Defines site.walk.scopes other distance ->
      (distance = 0 ∧ name.lexeme = other) ∨ Defines outer other distance := by
    rw [scopes]
    exact fun other distance => defines_of_bindName
  refine ⟨root, member, site, charts.within, part, ?_⟩
  refine follows_of_agrees faithful agrees sameDepth ?_ ?_ ?_
  · intro distance other defines
    exact (defined other distance defines).imp_left
      fun ⟨isZero, same⟩ => ⟨isZero, congrArg some same⟩
  · intro target other distance accessed filed
    have isPart : (Task.superclass name reference).part? = some site.part := by
      rw [part]
      rfl
    obtain ⟨inRange, ⟨isStore, -⟩ | defines⟩ := defines_of_access charts isPart accessed filed
    · cases isStore
    · cases accessed
      rcases defined _ _ defines with ⟨-, same⟩ | isBound
      · exact absurd same.symm different
      · exact ⟨sameDepth ▸ inRange, .inr isBound⟩
  · exact fun fuel keyword method distance impossible => nomatch impossible

/-- Whatever part of a program a ready task is about, the task follows the walk
over the program to that part. -/
theorem Task.Ready.follows
    {task : Task}
    {part : Part}
    (ready : task.Ready roots machine)
    (isPart : task.part? = some part) :
    ∃ root ∈ roots, ∃ site, root.Within site ∧ site.part = part ∧
      ∃ places, task.Follows machine root site places := by
  have ofLocated : ∀ {site : Site}, some site.part = task.part? -> Located roots machine site ->
      ∃ root ∈ roots, ∃ site, root.Within site ∧ site.part = part ∧
        ∃ places, task.Follows machine root site places := by
    intro site samePart located
    obtain ⟨root, member, within, follows⟩ := located.follows samePart.symm
    rw [isPart, Option.some_inj] at samePart
    exact ⟨root, member, site, within, samePart, follows⟩
  cases task with
  | evaluate | each | store | execute | repeatWhile =>
    obtain ⟨site, samePart, located⟩ := ready
    exact ofLocated (congrArg some samePart) located
  | sequence fuel steps =>
    obtain ⟨site, samePart, -, located⟩ := ready
    exact ofLocated (congrArg some samePart) located
  | superclass name reference =>
    cases isPart
    exact follows_superclass ready
  | invoke | call | callClosure => cases isPart

/-- Outside of all scopes, the walk stays there. -/
theorem scopes_topLevel
    (around : Surroundings)
    {walk : Resolution}
    {step : Stmt}
    (outside : walk.scopes = [])
    (wellFormed : step.WellFormed Token.IsName) :
    (Resolution.statement around step walk).scopes = [] := by
  rw [scopes_statement around step walk wellFormed, outside]
  cases step.declaredName? <;> rfl

/-- A located statement is ready to be run at top level. -/
theorem ready_topLevelTask
    {around : Surroundings}
    {walk : Resolution}
    {step : Stmt}
    (fuel : Nat)
    (located : Located roots machine ⟨around, .statement step, walk⟩) :
    (Session.topLevelTask fuel step).Ready roots machine := by
  cases step
  case expression value => exact ⟨_, rfl, located.child List.mem_cons_self rfl⟩
  all_goals exact ⟨_, rfl, located⟩

/-- Execution has gone on from one machine to another: it is faithful still, the heap has
grown, and of the names in the global scope only some that may be are new. -/
structure Advances
    (roots : List Site)
    (mayBe : String -> Prop)
    (before after : Machine) : Prop extends before.Resumes after where
  faithful : after.Faithful roots
  grows : before.heap.Grows after.heap
  globalNames : before.heap.AddsOnly mayBe before.globals after.heap

theorem Advances.refl {mayBe : String -> Prop} (faithful : machine.Faithful roots) :
    Advances roots mayBe machine machine :=
  ⟨.refl machine, faithful, .refl _, fun _ => .inl⟩

theorem Advances.trans
    {mayBe : String -> Prop}
    {middle after : Machine}
    (one : Advances roots mayBe machine middle)
    (other : Advances roots mayBe middle after) :
    Advances roots mayBe machine after := by
  refine ⟨one.toResumes.trans other.toResumes, other.faithful, one.grows.trans other.grows,
    fun name bound => ?_⟩
  rw [← one.globals] at bound
  refine (other.globalNames name bound).elim (fun known => ?_) .inr
  exact one.globalNames name (one.globals ▸ known)

/-- However a statement at the top level ends, execution has gone on. -/
theorem advances_executeTopLevel
    {mayBe : String -> Prop}
    {around : Surroundings}
    {walk : Resolution}
    {step : Stmt}
    (fuel : Nat)
    (echo : Bool)
    (located : Located roots machine ⟨around, .statement step, walk⟩)
    (declares : ∀ name, step.declaredName? = some name -> mayBe name) :
    Advances roots mayBe machine ((Session.executeTopLevel fuel echo step).left machine) := by
  have declaresOnly : (Session.topLevelTask fuel step).DeclaresOnly mayBe machine := by
    cases step with
    | expression => trivial
    | _ => exact fun _ => declares
  have grown : growthInvariant.Judged (Session.executeTopLevel fuel echo step) machine _ :=
    growthInvariant.judged_executeTopLevel echo trivial
  have kept := (faithfulInvariant roots mayBe machine.globals
    machine.distances).judged_executeTopLevel echo ⟨ready_topLevelTask fuel located, declaresOnly⟩
  obtain ⟨resumes, globalNames, ⟨faithful, -⟩⟩ := kept.left ⟨located.faithful, rfl, rfl⟩
  exact ⟨resumes, faithful, (grown.left trivial).2.1.scopes, globalNames⟩

/-- After a statement at the top level, the machine is located at the next
ones. -/
theorem located_next
    {mayBe : String -> Prop}
    {around : Surroundings}
    {walk : Resolution}
    {first : Stmt}
    {rest : List Stmt}
    {after : Machine}
    (outside : walk.scopes = [])
    (located : Located roots machine ⟨around, .statements (first :: rest), walk⟩)
    (advances : Advances roots mayBe machine after) :
    (Resolution.statement around first walk).scopes = [] ∧
      Located roots after ⟨around, .statements rest, Resolution.statement around first walk⟩ := by
  have wellFormed := located.charted.wellFormed
  rw [Part.WellFormed, Stmt.AllWellFormed] at wellFormed
  have stillOutside := scopes_topLevel around outside wellFormed.1
  have charted := located.charted.child (List.mem_cons_of_mem _ List.mem_cons_self)
  refine ⟨stillOutside, advances.faithful, advances.distances ▸ charted, ?_⟩
  have agrees := (located.later advances.faithful advances.toResumes advances.grows).agrees
  dsimp only at agrees ⊢
  rw [stillOutside]
  rwa [outside] at agrees

/-- Whatever interpreting a program visits is ready. -/
theorem Session.Visits.ready
    {fuel : Nat}
    {echo : Bool}
    {program : List Stmt}
    {task : Task}
    {final : Machine}
    (visits : Session.Visits fuel echo program machine task final)
    {around : Surroundings}
    {walk : Resolution}
    (outside : walk.scopes = [])
    (located : Located roots machine ⟨around, .statements program, walk⟩) :
    task.Ready roots final := by
  induction visits generalizing walk with
  | first visits =>
    exact visits.ready (ready_topLevelTask fuel (located.child List.mem_cons_self rfl))
  | later done _ inductionHypothesis =>
    have advances := advances_executeTopLevel fuel echo (located.child List.mem_cons_self rfl)
      fun _ _ => trivial
    rw [Eval.left_of_ok done] at advances
    obtain ⟨stillOutside, rest⟩ := located_next outside located advances
    exact inductionHypothesis stillOutside rest

end Following

end TreeWalk
