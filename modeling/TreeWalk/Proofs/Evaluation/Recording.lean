import TreeWalk.Proofs.Evaluation.Origins

/-!
# Evaluation keeps the heap explained

Every single step on an explained heap leads to an explained one, so evaluation as a whole
does.  A failure to read a method of the superclass is raised by one of the tasks.
-/

namespace TreeWalk

section Steps

variable {events : Events} {heap : Heap}

/-- A heap with the same functions and classes is as explained. -/
theorem Heap.Explained.grow
    {after : Heap}
    (explained : heap.Explained events)
    (since : Heap.Since events heap after)
    (functions : after.functions = heap.functions)
    (classes : after.classes = heap.classes) :
    after.Explained events := by
  refine explained.later since (fun place closure found => .inl ?_)
    fun place ofClass found => .inl ?_
  · rwa [Heap.function?, functions] at found
  · rwa [Heap.class?, classes] at found

/-- Put a function on the heap that has an origin there. -/
theorem explained_newFunction
    {closure : Closure}
    (explained : heap.Explained events)
    (origin : FunctionOrigin events (heap.newFunction closure).2 closure) :
    (heap.newFunction closure).2.Explained events := by
  refine explained.later (Heap.since_newFunction heap closure) (fun place found isFunction => ?_)
    fun _ _ => .inl
  simp only [Heap.function?, Heap.newFunction, Array.getElem?_push] at isFunction
  split at isFunction
  · cases isFunction
    exact .inr origin
  · exact .inl isFunction

/-- Put a class on the heap that has its origin there. -/
theorem explained_newClass
    {made : Class}
    (explained : heap.Explained events)
    (isExplained : made.Explained events heap) :
    (heap.newClass made).2.Explained events := by
  have since : Heap.Since events heap (heap.newClass made).2 := Heap.since_newClass heap made
  refine explained.later since (fun _ _ => .inl) fun place found isClass => ?_
  simp only [Heap.class?, Heap.newClass, Array.getElem?_push] at isClass
  split at isClass
  · cases isClass
    exact .inr (isExplained.later since)
  · exact .inl isClass

/-- Put a method on the heap that a task has fetched. -/
theorem explained_fetched
    {task : Task}
    {before machine : Machine}
    {method : Closure}
    {receiver : InstanceRef}
    (event : events task before)
    (fetches : Fetches task before method receiver machine)
    (explained : machine.heap.Explained events) :
    ((machine.heap.bindMethod method receiver).2.newFunction
      (machine.heap.bindMethod method receiver).1).2.Explained events := by
  have entered : Heap.Since events machine.heap (machine.heap.bindMethod method receiver).2 :=
    Heap.since_newScope _ _ _
  have added : Heap.Since events (machine.heap.bindMethod method receiver).2 _ :=
    Heap.since_newFunction _ (machine.heap.bindMethod method receiver).1
  refine explained_newFunction (explained.grow entered rfl rfl) ?_
  obtain ⟨place, name, isMethod⟩ := fetches.method
  exact .fetched event fetches (explained.method isMethod) added

/-- Bind a name, in any scope, as part of a task that binds it. -/
theorem explained_define
    {task : Task}
    {before : Machine}
    {name : String}
    (explained : heap.Explained events)
    (event : events task before)
    (binds : task.binds? = some name)
    (place : ScopeRef)
    (value : Value) :
    Heap.Since events heap (heap.define place name value) ∧
      (heap.define place name value).Explained events := by
  have since := Heap.since_define heap place value event binds
  exact ⟨since, explained.grow since rfl rfl⟩

/-- The methods of a class that is executed have their origin there. -/
theorem explained_plainClass
    {fuel : Nat}
    {name : Token}
    {functions : List FunctionDecl}
    {machine : Machine}
    (event : events (.execute (fuel + 1) (.classDecl name none functions)) machine)
    (since : Heap.Since events machine.heap heap) :
    Class.Explained events heap
      ⟨name.lexeme, [Eval.methodTable machine.scope functions]⟩ := by
  refine ⟨.plain event since, fun table member method closure found => ?_⟩
  rw [List.mem_singleton] at member
  subst member
  obtain ⟨declaration, inBody, rfl, sameScope⟩ := methodTable_get? found
  exact .plain event since inBody sameScope

/-- So have those of a subclass, apart from the inherited ones. -/
theorem explained_subclass
    {fuel : Nat}
    {name : Token}
    {reference : Reference}
    {functions : List FunctionDecl}
    {machine : Machine}
    {parent : ClassRef}
    (event : events (.execute (fuel + 1) (.classDecl name (some reference) functions)) machine)
    (read : Eval.readVariable reference machine = .ok (.classObject parent) machine)
    (since : Heap.Since events machine.heap (machine.subclassHeap name parent))
    (explained : (machine.subclassHeap name parent).Explained events) :
    Class.Explained events (machine.subclassHeap name parent) ⟨name.lexeme,
      Eval.methodTable ⟨machine.heap.scopes.size⟩ functions ::
        ((machine.heap.class? parent).map (·.lineage)).getD []⟩ := by
  refine ⟨.subclass event read since, fun table member method closure found => ?_⟩
  rcases List.mem_cons.mp member with rfl | isInherited
  · obtain ⟨declaration, inBody, rfl, sameScope⟩ := methodTable_get? found
    exact .subclass event read (.refl _) inBody sameScope
  · obtain ⟨ofClass, isClass, inLineage⟩ := Heap.class?_of_mem_lineage isInherited
    exact (explained.classes parent ofClass isClass).methods table inLineage method closure found

end Steps

/-- Evaluation keeps the heap explained by tasks to which whatever they begin belongs, and
goes on with the same distances. -/
def explainedInvariant
    {events : Events}
    (closed : events.Closed)
    (distances : Distances) : Invariant where
  sound machine := machine.distances = distances ∧ machine.heap.Explained events
  leads := Heap.Since events
  interrupts := Interruption.Raised events
  admits := events
  sound_of_eq sound heap _ sameDistances _ := ⟨sameDistances.trans sound.1, heap ▸ sound.2⟩
  leads_refl := Heap.Since.refl
  leads_trans := Heap.Since.trans
  interrupts_orLine line raised := raised.orLine line
  interrupts_failure line fault ordinary misplaced := by
    rcases misplaced with rfl | rfl <;> cases ordinary
  interrupts_outputFull _ := trivial
  interrupts_outOfFuel := trivial
  admits_begun event begins sound soundAfter since _ :=
    closed event begins ⟨since, soundAfter.1.trans sound.1.symm, sound.2, soundAfter.2⟩
  raises event failed _ := ⟨_, _, _, _, _, event, failed⟩
  allows_fetched event fetches sound :=
    ⟨(Heap.since_newScope _ _ _).trans (Heap.since_newFunction _ _), sound.1,
      explained_fetched event fetches sound.2⟩
  allows_stored event _ _ sound :=
    have ⟨since, explained⟩ := explained_define sound.2 event rfl _ _
    ⟨since, sound.1, explained⟩
  allows_field _ _ _ sound :=
    ⟨.of_eq rfl rfl rfl, sound.1, sound.2.grow (.of_eq rfl rfl rfl) rfl rfl⟩
  allows_declared event _ _ _ sound :=
    have ⟨since, explained⟩ := explained_define sound.2 event rfl _ _
    ⟨since, sound.1, explained⟩
  allows_function := fun {_ declaration machine} event sound => by
    have made : Heap.Since events machine.heap
        (machine.heap.newFunction ⟨declaration, machine.scope, false⟩).2 :=
      Heap.since_newFunction _ _
    have explained := explained_newFunction sound.2 (.declared event made)
    obtain ⟨since, isExplained⟩ := explained_define explained event rfl machine.scope
      (.function ⟨machine.heap.functions.size⟩)
    exact ⟨made.trans since, sound.1, isExplained⟩
  allows_className event _ _ _ _ sound :=
    have ⟨since, explained⟩ := explained_define sound.2 event rfl _ _
    ⟨since, sound.1, explained⟩
  allows_superclass _ _ _ sound :=
    have entered := Heap.since_newScope _ _ _
    ⟨entered, sound.1, sound.2.grow entered rfl rfl⟩
  allows_plainClass event since sound :=
    ⟨Heap.since_newClass _ _, sound.1,
      explained_newClass sound.2 (explained_plainClass event since)⟩
  allows_subclass event read since sound :=
    ⟨Heap.since_newClass _ _, sound.1,
      explained_newClass sound.2 (explained_subclass event read since sound.2)⟩
  allows_block _ sound :=
    have entered := Heap.since_newScope _ _ _
    ⟨entered, sound.1, sound.2.grow entered rfl rfl⟩
  allows_parameters _ _ sound :=
    have entered := Heap.since_newScope _ _ _
    ⟨entered, sound.1, sound.2.grow entered rfl rfl⟩
  allows_instance _ sound :=
    ⟨.of_eq rfl rfl rfl, sound.1, sound.2.grow (.of_eq rfl rfl rfl) rfl rfl⟩
  allows_receiver _ _ sound :=
    have entered := Heap.since_newScope _ _ _
    ⟨entered, sound.1, sound.2.grow entered rfl rfl⟩

section Continuing

variable
  {α : Type}
  {events : Events}
  {closed : events.Closed}
  {machine after : Machine}
  {evaluation : Eval α}
  {stated : Heap -> α -> Prop}

/-- However an evaluation ends, it goes on to there. -/
theorem Regime.Judged.continues
    (judged : (explainedInvariant closed machine.distances).Judged evaluation machine stated)
    (explained : machine.heap.Explained events) :
    Continues events machine (evaluation.left machine) :=
  have ⟨_, since, sameDistances, explainedAfter⟩ := judged.left ⟨rfl, explained⟩
  ⟨since, sameDistances, explained, explainedAfter⟩

/-- If an evaluation is interrupted by a failure, a task has raised it. -/
theorem Regime.Judged.raised
    {interruption : Interruption}
    (judged : (explainedInvariant closed machine.distances).Judged evaluation machine stated)
    (explained : machine.heap.Explained events)
    (ended : evaluation machine = .error interruption after) :
    interruption.Raised events :=
  (judged.error ⟨rfl, explained⟩ ended).2.2.2

/-- Whatever a task begins or gets to is one of the tasks, and evaluation has gone on to
there. -/
theorem Task.Visits.continues
    {task inner : Task}
    (visits : task.Visits machine inner after)
    (closed : events.Closed)
    (event : events task machine)
    (explained : machine.heap.Explained events) :
    events inner after ∧ Continues events machine after := by
  obtain ⟨since, sound, innerEvent, -⟩ :=
    (explainedInvariant closed machine.distances).visited visits event
      (task.passes_of_forall fun _ => trivial) ⟨rfl, explained⟩
  exact ⟨innerEvent, since, sound.1, explained, sound.2⟩

end Continuing

end TreeWalk
