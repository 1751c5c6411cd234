import TreeWalk.Proofs.Evaluation.Intact
import TreeWalk.Proofs.Session.Receivers

/-!
# Initializers and their instances

A method becomes a value only when it is fetched for an instance, so every function
that is marked as an initializer has a scope of its own that binds the receiver to an
instance.  No task binds the name of the receiver again.  Over a whole chronicle, an
initializer therefore gives its own instance whenever it is called, whatever its body
does, and a call of a class gives an instance of that class that was not there before.
-/

namespace TreeWalk

/-- The scope that a function remembers binds the receiver to an instance on the
heap. -/
def Heap.BindsReceiver (heap : Heap) (closure : Closure) (receiver : InstanceRef) : Prop :=
  (heap.scope closure.scope).bindings.get? selfName = some (.object receiver) ∧
    ∃ object, heap.instance? receiver = some object

/-- A function comes from the execution of its declaration, and is no initializer, or it
is a method that some task has fetched for an instance.  Such a method is bound to the
instance, and is an initializer exactly if it is declared as one. -/
inductive Closure.Accounted (visited : Events) (heap : Heap) : Closure -> Prop
  | declared
      {fuel : Nat}
      {declaration : FunctionDecl}
      {machine : Machine}
      (event : visited (.execute (fuel + 1) (.function declaration)) machine) :
      Accounted visited heap ⟨declaration, machine.scope, false⟩
  | bound
      {task : Task}
      {before machine : Machine}
      {method : Closure}
      {receiver : InstanceRef}
      (event : visited task before)
      (fetches : Fetches task before method receiver machine)
      (marked : method.isInitializer =
        decide (method.declaration.name.lexeme = initializerName))
      (binds : heap.BindsReceiver (machine.heap.bindMethod method receiver).1 receiver) :
      Accounted visited heap (machine.heap.bindMethod method receiver).1

/-- Nothing is missing from a heap, and every function on it is accounted for. -/
structure Heap.Accounted (visited : Events) (heap : Heap) : Prop where
  intact : heap.Intact
  functions : ∀ (place : FunctionRef) (closure : Closure),
    heap.function? place = some closure -> closure.Accounted visited heap

section Bound

variable {events visited : Events} {before after heap : Heap} {closure : Closure}

/-- An accounted initializer has a receiver. -/
theorem Closure.Accounted.receiver
    (accounted : closure.Accounted visited heap)
    (isInitializer : closure.isInitializer = true) :
    ∃ receiver, heap.BindsReceiver closure receiver := by
  cases accounted with
  | declared event => cases isInitializer
  | bound event fetches marked binds => exact ⟨_, binds⟩

/-- The scope of a function that is bound to an instance has been made. -/
theorem Heap.BindsReceiver.made
    {receiver : InstanceRef}
    (binds : heap.BindsReceiver closure receiver) :
    closure.scope.index < heap.scopes.size := by
  refine Nat.lt_of_not_le fun missing => ?_
  have bound := binds.1
  rw [scope, Array.getD_eq_getD_getElem?, Array.getElem?_eq_none missing] at bound
  cases bound

/-- A function stays bound to its instance. -/
theorem Heap.BindsReceiver.kept
    {receiver : InstanceRef}
    (binds : before.BindsReceiver closure receiver)
    (since : Heap.Since events before after)
    (ordinary : events.Ordinary) :
    (after.scope closure.scope).bindings.get? selfName = some (.object receiver) :=
  (since.kept_self ordinary binds.made).trans binds.1

/-- A method that is bound to an instance is bound to it. -/
theorem Heap.bindsReceiver_bindMethod
    {receiver : InstanceRef}
    {object : Instance}
    (method : Closure)
    (isInstance : heap.instance? receiver = some object) :
    (heap.bindMethod method receiver).2.BindsReceiver (heap.bindMethod method receiver).1
      receiver := by
  refine ⟨?_, object, isInstance⟩
  simp only [bindMethod, scope_newScope_self, Bindings.get?_set_self]

/-- What an initializer gives is read from the scope that it remembers. -/
theorem Eval.callClosure_initializer
    {execute : Stmt -> Eval Flow}
    {arguments : List Value}
    {machine final : Machine}
    {value : Value}
    (isInitializer : closure.isInitializer = true)
    (ended : callClosure execute closure arguments machine = .ok value final) :
    value = final.heap.getAt closure.scope 0 selfName := by
  rw [callClosure_eq] at ended
  obtain ⟨place, entered, -, called⟩ := bind_eq_ok_iff.mp ended
  obtain ⟨flow, left, -, finished⟩ := bind_eq_ok_iff.mp called
  simp only [if_pos isInitializer] at finished
  cases finished
  rfl

/-- An initializer gives the instance that it is bound to. -/
theorem Heap.BindsReceiver.called
    {receiver : InstanceRef}
    {execute : Stmt -> Eval Flow}
    {arguments : List Value}
    {machine final : Machine}
    {value : Value}
    (binds : machine.heap.BindsReceiver closure receiver)
    (isInitializer : closure.isInitializer = true)
    (ended : Eval.callClosure execute closure arguments machine = .ok value final)
    (since : Heap.Since events machine.heap final.heap)
    (ordinary : events.Ordinary) :
    value = .object receiver := by
  rw [Eval.callClosure_initializer isInitializer ended, getAt, ancestor,
    binds.kept since ordinary]
  rfl

/-- A value that is called with another number of arguments than it takes is not called:
the number that it takes and the number that was given are reported on the line of the
call, and the machine stays as it was. -/
theorem Eval.invoke_of_mismatch
    {callee : Value}
    {callable : Callable}
    {arguments : List Value}
    {machine : Machine}
    (found : machine.heap.callable? callee = some callable)
    (mismatch : arguments.length ≠ callable.arity)
    (execute : Stmt -> Eval Flow)
    (paren : Token) :
    invoke execute callee paren arguments machine =
      .error (.failure paren.line (.wrongArity callable.arity arguments.length)) machine := by
  rw [invoke_apply, found, invokeAt, if_pos mismatch]
  rfl

/-- A value that is called with a result takes as many arguments as there are, and is
called at a depth that is within the limit. -/
theorem Eval.invoke_ok
    {execute : Stmt -> Eval Flow}
    {callee value : Value}
    {paren : Token}
    {arguments : List Value}
    {machine final : Machine}
    (ended : invoke execute callee paren arguments machine = .ok value final) :
    ∃ callable inner, machine.heap.callable? callee = some callable ∧
      arguments.length = callable.arity ∧ machine.callDepth < maxCallDepth ∧
      call execute arguments callable { machine with callDepth := machine.callDepth + 1 } =
        .ok value inner ∧ final = { inner with callDepth := inner.callDepth - 1 } := by
  cases found : machine.heap.callable? callee with
  | none =>
    rw [invoke_apply, found] at ended
    cases ended
  | some callable =>
    by_cases matching : arguments.length = callable.arity
    · rw [invoke_of_matching found matching] at ended
      split at ended
      · cases ended
      · rename_i shallow
        rw [asCall_eq_wrapped] at ended
        obtain ⟨inner, called, isFinal⟩ := wrapped_eq_ok ended
        exact ⟨callable, inner, rfl, matching, Nat.lt_of_not_le shallow, called, isFinal⟩
    · rw [invoke_of_mismatch found matching] at ended
      cases ended

section Fetched

variable
  {task : Task}
  {start machine : Machine}
  {method : Closure}
  {receiver : InstanceRef}

/-- A task that fetches a method does so on an intact heap. -/
theorem Fetches.intact
    (fetches : Fetches task start method receiver machine)
    (intact : start.heap.Intact) :
    machine.heap.Intact := by
  cases fetches with
  | property evaluated _ _ _ =>
    obtain ⟨-, -, stillIntact, -⟩ := (intactInvariant.judged_evaluate trivial).ok intact evaluated
    exact stillIntact
  | inherited _ _ _ _ => exact intact
  | instantiation isMethod =>
    rw [Heap.method?, Option.bind_eq_some_iff] at isMethod
    obtain ⟨ofClass, isClass, -⟩ := isMethod
    exact intact.newInstance (Array.getElem?_eq_some_iff.mp isClass).1

/-- A method that has been fetched for an instance is an initializer exactly if it is
declared as one. -/
theorem Fetches.marked
    (fetches : Fetches task start method receiver machine)
    (intact : start.heap.Intact) :
    method.isInitializer = decide (method.declaration.name.lexeme = initializerName) := by
  obtain ⟨place, name, isMethod⟩ := fetches.method
  exact (fetches.intact intact).method isMethod

/-- A method that has just been bound to the instance for which it was fetched. -/
theorem Fetches.accounted
    (fetches : Fetches task start method receiver machine)
    (event : visited task start)
    (intact : start.heap.Intact) :
    (machine.heap.bindMethod method receiver).1.Accounted visited
      (machine.heap.bindMethod method receiver).2 :=
  .bound event fetches (fetches.marked intact)
    (Heap.bindsReceiver_bindMethod method (Array.getElem?_eq_getElem
      (fetches.holds (fetches.intact intact))))

end Fetched

/-- Every function that has its origin in a task on an intact heap is accounted for. -/
theorem FunctionOrigin.accounted
    (origin : FunctionOrigin events heap closure)
    (ordinary : events.Ordinary)
    (intact : heap.Intact)
    (included : ∀ task machine, events task machine ->
      visited task machine ∧ machine.heap.Intact) :
    closure.Accounted visited heap := by
  cases origin with
  | declared event since => exact .declared (included _ _ event).1
  | @fetched task before machine method receiver event fetches known since =>
    obtain ⟨isVisited, intactBefore⟩ := included _ _ event
    have binds := Heap.bindsReceiver_bindMethod method
      (Array.getElem?_eq_getElem (fetches.holds (fetches.intact intactBefore)))
    have stillBound := binds.kept since ordinary
    have held : heap.Holds (.object receiver) := intact.scopes _ _ _ stillBound
    exact .bound isVisited fetches (fetches.marked intactBefore)
      ⟨stillBound, _, Array.getElem?_eq_getElem held⟩

end Bound

namespace Session

section Intact

variable {fuel : Nat} {echo : Bool} {machine : Machine}

/-- Interpreting a program keeps the heap intact. -/
theorem intact_interpreted
    {session : Session}
    (intact : session.machine.heap.Intact)
    (fuel : Nat)
    (source : String) :
    (session.interpreted fuel source).2.2.heap.Intact := by
  have admitted : ∀ step ∈ session.program source, ∀ machine,
      intactInvariant.admits (topLevelTask fuel step) machine := by
    intro step _ machine
    cases step <;> trivial
  have sound : intactInvariant.sound (session.ready source) := intact
  exact (intactInvariant.interpreted admitted sound 0).2.2.1

/-- Wherever interpreting a program gets, the heap is intact, and what is called is called
with as many arguments as it takes. -/
theorem Visits.intact
    {program : List Stmt}
    {task : Task}
    {final : Machine}
    (visits : Visits fuel echo program machine task final)
    (intact : machine.heap.Intact) :
    machine.heap.Retains final.heap ∧ final.heap.Intact ∧ task.Matched final.heap ∧
      task.Passes final.heap.Holds := by
  refine intactInvariant.visitedIn (fun step _ machine => ?_) intact visits
  cases step <;> trivial

/-- Nothing is missing from the heap of a fresh session. -/
theorem intact_fresh (clock : Clock) (output : Output) :
    (Session.fresh clock output).machine.heap.Intact := by
  have started : Heap.Intact (Heap.newNative {} Native.clock).2 := by
    refine ⟨fun place native found => ?_, fun place name value bound => ?_, nofun, nofun⟩
    · simp only [Heap.newNative, Heap.native?] at found
      rw [Array.getElem?_eq_some_iff] at found
      obtain ⟨inRange, rfl⟩ := found
      simp_all [Native.clock]
    · simp [Heap.newNative, Heap.scope] at bound
  refine started.newScope none (Bindings.all_empty.set ?_)
  simp [Heap.Holds, Heap.newNative]

end Intact

variable
  {session : Session}
  {roots : List Site}
  {visited : Events}
  {source : String}
  {fuel : Nat}

/-- The heap of a session is intact, and so was every heap on which a task was
visited. -/
theorem Chronicle.intact (past : Chronicle session roots visited) :
    session.machine.heap.Intact ∧
      ∀ task machine, visited task machine -> machine.heap.Intact := by
  induction past with
  | fresh clock output => exact ⟨intact_fresh clock output, fun _ _ isVisited => isVisited.elim⟩
  | echo _ echo inductionHypothesis => exact inductionHypothesis
  | @accepted session after roots visited source fuel result past accepts runs
      inductionHypothesis =>
    obtain ⟨intact, tasks⟩ := inductionHypothesis
    refine ⟨?_, fun task machine isVisited => ?_⟩
    · rw [eq_of_run accepts runs]
      exact intact_interpreted intact fuel source
    · rcases isVisited with isOld | isNew
      · exact tasks task machine isOld
      · exact (isNew.intact intact).2.1
  | rejected _ rejects runs inductionHypothesis =>
    rw [run_of_rejected rejects] at runs
    cases runs
    exact inductionHypothesis

/-- A function is called where a call is carried out. -/
theorem Visits.called
    {echo : Bool}
    {program : List Stmt}
    {machine final : Machine}
    {steps : Nat}
    {closure : Closure}
    {arguments : List Value}
    (visits : Visits fuel echo program machine (.callClosure steps closure arguments) final) :
    ∃ callable middle, Visits fuel echo program machine (.call steps arguments callable) middle ∧
      Begins (.call steps arguments callable) middle (.callClosure steps closure arguments)
        final := by
  generalize isTask : Task.callClosure steps closure arguments = task at visits
  induction visits with
  | @first first rest machine final task visits =>
    cases visits with
    | start => cases first <;> cases isTask
    | further before begins =>
      subst isTask
      cases begins with
      | callFunction => exact ⟨_, _, .first before, .callFunction⟩
      | setUp => exact ⟨_, _, .first before, .setUp⟩
  | later done _ inductionHypothesis =>
    obtain ⟨callable, middle, before, begins⟩ := inductionHypothesis isTask
    exact ⟨callable, middle, .later done before, begins⟩

/-! ## Accounted functions over a session -/

section Visited

variable
  {task : Task}
  {machine : Machine}
  (past : Chronicle session roots visited)
  (accepts : session.staticErrors source = [])

include past accepts

/-- The events of a chronicle bind no receivers by name. -/
theorem Chronicle.ordinary (fuel : Nat) :
    (nestedEvents (session.root source :: roots) (session.visitedAfter fuel source visited)
      session.machine.globals).Ordinary :=
  ordinary_nestedEvents fun root member => (sound_roots past.history accepts root member).1

/-- Every function on an intact heap of a run is accounted for. -/
theorem Chronicle.accounted
    {heap : Heap}
    (intact : heap.Intact)
    (explained : heap.Explained (nestedEvents (session.root source :: roots)
      (session.visitedAfter fuel source visited) session.machine.globals)) :
    heap.Accounted (session.visitedAfter fuel source visited) := by
  obtain ⟨sessionIntact, tasks⟩ := past.intact
  refine ⟨intact, fun place closure found => ?_⟩
  refine (explained.functions place closure found).accounted (past.ordinary accepts fuel) intact ?_
  rintro task machine ⟨isVisited, -⟩
  refine ⟨isVisited, ?_⟩
  rcases isVisited with isOld | isNew
  · exact tasks task machine isOld
  · exact (isNew.intact sessionIntact).2.1

/-- Every function on the heap is accounted for, before and after a run. -/
theorem Chronicle.accounted_run (fuel : Nat) :
    session.machine.heap.Accounted (session.visitedAfter fuel source visited) ∧
      (session.interpreted fuel source).2.2.heap.Accounted
        (session.visitedAfter fuel source visited) := by
  have sound := fun root member => (sound_roots past.history accepts root member).1
  have underway := past.recorded.underway past.history fuel source
  have continues := (underway.interpret (past.recorded.closed past.history accepts fuel) sound 0).1
  refine ⟨past.accounted accepts past.intact.1 underway.explained, ?_⟩
  exact past.accounted accepts
    (intact_interpreted past.intact.1 fuel source) continues.explained

section Tasks

variable
  (visits : Visits fuel session.echo (session.program source) (session.ready source) task machine)

include visits

/-- The functions on the heap are accounted for at every task, and behind it. -/
theorem Chronicle.accounted_task :
    machine.heap.Accounted (session.visitedAfter fuel source visited) ∧
      (∀ steps value, task = .evaluate steps value ->
        ((Eval.evaluate steps value).left machine).heap.Accounted
          (session.visitedAfter fuel source visited)) ∧
      ∀ steps step, task = .execute steps step ->
        ((Eval.execute steps step).left machine).heap.Accounted
          (session.visitedAfter fuel source visited) := by
  have closed := past.recorded.closed past.history accepts fuel
  obtain ⟨event, continues⟩ := past.recorded.visits past.history accepts visits
  have intact := (visits.intact past.intact.1).2.1
  refine ⟨past.accounted accepts intact continues.explained, ?_, ?_⟩
  · rintro steps value rfl
    have judged : (explainedInvariant closed machine.distances).Judged
        (Eval.evaluate steps value) machine _ :=
      (explainedInvariant closed machine.distances).judged_evaluate event
    obtain ⟨-, -, stillIntact⟩ := (intactInvariant.judged_evaluate trivial).left intact
    exact past.accounted accepts stillIntact (judged.continues continues.explained).explained
  · rintro steps step rfl
    have judged : (explainedInvariant closed machine.distances).Judged
        (Eval.execute steps step) machine _ :=
      (explainedInvariant closed machine.distances).judged_execute event
    obtain ⟨-, -, stillIntact⟩ := (intactInvariant.judged_execute trivial).left intact
    exact past.accounted accepts stillIntact (judged.continues continues.explained).explained

end Tasks

/-- A function that is called is accounted for, and is given as many arguments as it has
parameters. -/
theorem Chronicle.called
    {steps : Nat}
    {closure : Closure}
    {arguments : List Value}
    (visits : Visits fuel session.echo (session.program source) (session.ready source)
      (.callClosure steps closure arguments) machine) :
    closure.Accounted (session.visitedAfter fuel source visited) machine.heap ∧
      arguments.length = closure.declaration.parameters.length := by
  obtain ⟨-, -, matching, -⟩ := visits.intact past.intact.1
  refine ⟨?_, matching⟩
  obtain ⟨callable, middle, before, begins⟩ := visits.called
  obtain ⟨-, intact, ⟨-, callee, found⟩, -⟩ := before.intact past.intact.1
  cases begins with
  | callFunction =>
    obtain ⟨place, isFunction⟩ := function?_of_callable? found
    exact (past.accounted_task accepts before).1.functions place closure isFunction
  | @setUp _ _ place method =>
    have fetches : Fetches (.call steps arguments (.ofClass place (some method))) middle method
        _ _ :=
      .instantiation (method?_of_callable? found)
    exact fetches.accounted (.inr before) intact

/-- A call of an initializer that comes to a result gives the instance that the
initializer is bound to. -/
theorem Chronicle.initialized
    {steps : Nat}
    {closure : Closure}
    {arguments : List Value}
    {receiver : InstanceRef}
    {value : Value}
    {after : Machine}
    (visits : Visits fuel session.echo (session.program source) (session.ready source)
      (.callClosure steps closure arguments) machine)
    (binds : machine.heap.BindsReceiver closure receiver)
    (isInitializer : closure.isInitializer = true)
    (ended : Eval.callClosure (Eval.execute steps) closure arguments machine = .ok value after) :
    value = .object receiver := by
  have closed := past.recorded.closed past.history accepts fuel
  obtain ⟨event, continues⟩ := past.recorded.visits past.history accepts visits
  have judged : (explainedInvariant closed machine.distances).Judged
      (Eval.callClosure (Eval.execute steps) closure arguments) machine _ :=
    (explainedInvariant closed machine.distances).judged_callClosure event fun _ _ => trivial
  obtain ⟨-, since, -⟩ := judged.ok ⟨rfl, continues.explained⟩ ended
  exact binds.called isInitializer ended since (past.ordinary accepts fuel)

/-- A call of a bound initializer, as a value, gives the instance that it is bound to. -/
theorem Chronicle.invoked_function
    {steps : Nat}
    {place : FunctionRef}
    {paren : Token}
    {closure : Closure}
    {arguments : List Value}
    (visits : Visits fuel session.echo (session.program source) (session.ready source)
      (.invoke steps (.function place) paren arguments) machine)
    (found : machine.heap.function? place = some closure)
    (isInitializer : closure.isInitializer = true) :
    ∃ receiver, machine.heap.BindsReceiver closure receiver ∧
      ∀ value after, Eval.invoke (Eval.execute steps) (.function place) paren arguments machine =
        .ok value after -> value = .object receiver := by
  have accounted := (past.accounted_task accepts visits).1.functions place closure found
  obtain ⟨receiver, binds⟩ := accounted.receiver isInitializer
  refine ⟨receiver, binds, fun value after ended => ?_⟩
  obtain ⟨callable, inner, isCallable, matching, shallow, called, -⟩ := Eval.invoke_ok ended
  have same : callable = .closure closure := by
    rw [Heap.callable?, found] at isCallable
    cases isCallable
    rfl
  subst same
  have visitsCall := (visits.begins (.call isCallable matching shallow)).begins .callFunction
  exact past.initialized accepts visitsCall binds isInitializer called

omit accepts in
/-- A call of a class, as a value, gives an instance of the class that was not there
before. -/
theorem Chronicle.invoked_class
    {steps : Nat}
    {place : ClassRef}
    {paren : Token}
    {arguments : List Value}
    {value : Value}
    {after : Machine}
    (visits : Visits fuel session.echo (session.program source) (session.ready source)
      (.invoke steps (.classObject place) paren arguments) machine)
    (ended : Eval.invoke (Eval.execute steps) (.classObject place) paren arguments machine =
      .ok value after) :
    machine.heap.Retains after.heap ∧ ∃ receiver fields, value = .object receiver ∧
      machine.heap.instance? receiver = none ∧
        after.heap.instance? receiver = some ⟨place, fields⟩ := by
  obtain ⟨-, intact, -, held⟩ := visits.intact past.intact.1
  obtain ⟨callable, inner, found, matching, -, called, rfl⟩ := Eval.invoke_ok ended
  obtain ⟨initializer, rfl⟩ : ∃ initializer, callable = .ofClass place initializer := by
    rw [Heap.callable?, Option.map_eq_some_iff] at found
    obtain ⟨ofClass, -, rfl⟩ := found
    exact ⟨_, rfl⟩
  have judged : intactInvariant.Judged
      (Eval.call (Eval.execute steps) arguments (.ofClass place initializer))
      { machine with callDepth := machine.callDepth + 1 } _ :=
    intact_instantiate ⟨matching, _, found⟩ held
  obtain ⟨-, retains, -, isNew, fields, isInstance⟩ := judged.ok intact called
  exact ⟨retains, _, fields, isNew, (Heap.instance?_newInstance machine.heap place).1, isInstance⟩

end Visited

/-- Initializers give their own instances.  Whatever runs have led to a session, and
wherever a run of an accepted program gets: nothing is missing from the heap, and every
function on it is no initializer and comes from the execution of its declaration, or is
a method that is bound to the instance for which it was fetched.  A function is always
called with as many arguments as it has parameters, so that each of them is paired with
one, and a call with another number of arguments is reported and changes nothing.  An
initializer that comes to a result gives the instance that it is bound to, and
a class gives an instance of that very class that was not there before. -/
theorem initializers_give_their_instances
    (past : Chronicle session roots visited)
    (accepts : session.staticErrors source = []) :
    session.machine.heap.Accounted (session.visitedAfter fuel source visited) ∧
    (session.interpreted fuel source).2.2.heap.Accounted
      (session.visitedAfter fuel source visited) ∧
    ∀ task machine,
      Visits fuel session.echo (session.program source) (session.ready source) task machine ->
      session.machine.heap.Retains machine.heap ∧
      (machine.heap.Accounted (session.visitedAfter fuel source visited) ∧
        (∀ steps value, task = .evaluate steps value ->
          ((Eval.evaluate steps value).left machine).heap.Accounted
            (session.visitedAfter fuel source visited)) ∧
        ∀ steps step, task = .execute steps step ->
          ((Eval.execute steps step).left machine).heap.Accounted
            (session.visitedAfter fuel source visited)) ∧
      (∀ steps closure arguments, task = .callClosure steps closure arguments ->
        closure.Accounted (session.visitedAfter fuel source visited) machine.heap ∧
        (arguments.length = closure.declaration.parameters.length ∧
          (closure.declaration.parameters.zip arguments).unzip =
            (closure.declaration.parameters, arguments)) ∧
        (closure.isInitializer = true -> ∃ receiver, machine.heap.BindsReceiver closure receiver ∧
          ∀ value after, Eval.callClosure (Eval.execute steps) closure arguments machine =
            .ok value after -> value = .object receiver)) ∧
      (∀ steps callee paren arguments callable,
        task = .invoke steps callee paren arguments ->
        machine.heap.callable? callee = some callable -> arguments.length ≠ callable.arity ->
        Eval.invoke (Eval.execute steps) callee paren arguments machine =
          .error (.failure paren.line (.wrongArity callable.arity arguments.length)) machine) ∧
      (∀ steps place paren arguments closure,
        task = .invoke steps (.function place) paren arguments ->
        machine.heap.function? place = some closure -> closure.isInitializer = true ->
        ∃ receiver, machine.heap.BindsReceiver closure receiver ∧
          ∀ value after, Eval.invoke (Eval.execute steps) (.function place) paren arguments
            machine = .ok value after -> value = .object receiver) ∧
      ∀ steps place paren arguments value after,
        task = .invoke steps (.classObject place) paren arguments ->
        Eval.invoke (Eval.execute steps) (.classObject place) paren arguments machine =
          .ok value after ->
        machine.heap.Retains after.heap ∧ ∃ receiver fields, value = .object receiver ∧
          machine.heap.instance? receiver = none ∧
            after.heap.instance? receiver = some ⟨place, fields⟩ := by
  obtain ⟨accountedBefore, accountedAfter⟩ := past.accounted_run accepts fuel
  refine ⟨accountedBefore, accountedAfter, fun task machine visits =>
    ⟨(visits.intact past.intact.1).1, past.accounted_task accepts visits, ?_, ?_, ?_, ?_⟩⟩
  · rintro steps closure arguments rfl
    obtain ⟨accounted, matching⟩ := past.called accepts visits
    refine ⟨accounted, ⟨matching, List.unzip_zip matching.symm⟩, fun isInitializer => ?_⟩
    obtain ⟨receiver, binds⟩ := accounted.receiver isInitializer
    exact ⟨receiver, binds, fun _ _ => past.initialized accepts visits binds isInitializer⟩
  · rintro steps callee paren arguments callable - found mismatch
    exact Eval.invoke_of_mismatch found mismatch _ paren
  · rintro steps place paren arguments closure rfl found isInitializer
    exact past.invoked_function accepts visits found isInitializer
  · rintro steps place paren arguments value after rfl ended
    exact past.invoked_class visits ended

/-- A text that declares a class with an initializer that returns early and a subclass
whose own initializer calls the inherited one.  It makes an instance of the subclass and
keeps its initializer. -/
def settingUpText : String :=
  "class A \x7b init() \x7b return; \x7d \x7d " ++
  "class B < A \x7b init() \x7b this.up = super.init() == this; \x7d \x7d " ++
  "var b = B(); var again = b.init;"

/-- A text that calls the initializer as it was kept and through the instance, and makes
another instance. -/
def calledAgainText : String :=
  "print b.up; print again() == b; print b.init() == b; print B() == b;"

/-- An initializer with a bare return, one called through its superclass, and one that was
kept. -/
theorem initializers_give_their_instances_calling :
    ∃ result after visited, untouched.run 20 settingUpText = some (result, after) ∧
      Chronicle after [untouched.root settingUpText] visited ∧
      after.staticErrors calledAgainText = [] ∧
      (after.run 20 calledAgainText).any (·.2.machine.output.written ==
        "true\ntrue\ntrue\nfalse\n".toUTF8) = true ∧
      after.machine.heap.Accounted (after.visitedAfter 20 calledAgainText visited) ∧
      (after.interpreted 20 calledAgainText).2.2.heap.Accounted
        (after.visitedAfter 20 calledAgainText visited) := by
  have called : ((untouched.staticErrors settingUpText).isEmpty &&
      (untouched.run 20 settingUpText).any fun one =>
        (one.2.staticErrors calledAgainText).isEmpty &&
          (one.2.run 20 calledAgainText).any (·.2.machine.output.written ==
            "true\ntrue\ntrue\nfalse\n".toUTF8)) = true := by
    decide +kernel
  rw [Bool.and_eq_true, List.isEmpty_iff] at called
  obtain ⟨accepts, ran⟩ := called
  obtain ⟨⟨result, after⟩, runs, prints⟩ := (Option.any_eq_true _ _).mp ran
  rw [Bool.and_eq_true, List.isEmpty_iff] at prints
  have past : Chronicle after [untouched.root settingUpText] _ :=
    .accepted (.fresh _ _) accepts runs
  obtain ⟨before, finished, -⟩ := initializers_give_their_instances past prints.1
  exact ⟨result, after, _, runs, past, prints.1, prints.2, before, finished⟩

end Session
end TreeWalk
