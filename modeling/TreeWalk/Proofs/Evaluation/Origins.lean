import TreeWalk.Proofs.Evaluation.Invariants
import TreeWalk.Proofs.Grammar.Form
import TreeWalk.Proofs.Heap.Chain

/-!
# Where things on the heap come from

Every function on the heap was put there by a task: the execution of its
declaration, or a task that fetched a method for a receiver.  Every method in a
class was put there by the execution of a class declaration.  A heap is explained
by a set of tasks when these are the only origins that there are, and evaluation
leads from explained heaps to explained heaps.

This module also says once what evaluation never changes: the functions and the
classes that there are, the table of distances, and in a scope that has been made
every binding of a name which no task binds.
-/

namespace TreeWalk

/-- Some tasks, each with the machine on which it began. -/
abbrev Events := Task -> Machine -> Prop

/-- The name that a task binds or assigns to in a scope that is there already. -/
def Task.binds? : Task -> Option String
  | .store target _ => some target.name.lexeme
  | .execute _ step => step.declaredName?
  | _ => none

namespace Heap

/-- One heap has come from another: it has the same functions and classes and
maybe more, its scopes have grown, and a name that no task binds has kept its
bindings in the scopes that were there. -/
structure Since (events : Events) (before after : Heap) : Prop where
  grows : Grows before after
  functions : ∀ (place : FunctionRef) (closure : Closure),
    before.function? place = some closure -> after.function? place = some closure
  classes : ∀ (place : ClassRef) (found : Class),
    before.class? place = some found -> after.class? place = some found
  kept : ∀ name, (∀ task machine, events task machine -> task.binds? ≠ some name) ->
    ∀ place : ScopeRef, place.index < before.scopes.size ->
      (after.scope place).bindings.get? name = (before.scope place).bindings.get? name

namespace Since

variable {events : Events} {before middle after : Heap}

theorem refl (heap : Heap) : Since events heap heap :=
  ⟨.refl heap, fun _ _ => id, fun _ _ => id, fun _ _ _ _ => rfl⟩

theorem trans
    (one : Since events before middle)
    (other : Since events middle after) :
    Since events before after := by
  refine ⟨one.grows.trans other.grows, fun place closure found => ?_, fun place made found => ?_,
    fun name unbound place made => ?_⟩
  · exact other.functions place closure (one.functions place closure found)
  · exact other.classes place made (one.classes place made found)
  · rw [other.kept name unbound place (Nat.lt_of_lt_of_le made one.grows.size)]
    exact one.kept name unbound place made

/-- More tasks may have taken place. -/
theorem mono
    {more : Events}
    (since : Since events before after)
    (included : ∀ task machine, events task machine -> more task machine) :
    Since more before after :=
  ⟨since.grows, since.functions, since.classes, fun name unbound =>
    since.kept name fun task machine event => unbound task machine (included task machine event)⟩

/-- A heap with the same scopes, functions and classes. -/
theorem of_eq
    (scopes : after.scopes = before.scopes)
    (functions : after.functions = before.functions)
    (classes : after.classes = before.classes) :
    Since events before after := by
  refine ⟨.of_scopes_eq scopes, fun place closure found => ?_, fun place made found => ?_,
    fun name _ place _ => ?_⟩
  · rwa [function?, functions]
  · rwa [class?, classes]
  · rw [scope, scopes]
    rfl

/-- A method that was found before is found since. -/
theorem method?
    (since : Since events before after)
    {place : ClassRef}
    {name : String}
    {method : Closure}
    (found : before.method? place name = some method) :
    after.method? place name = some method := by
  rw [Heap.method?, Option.bind_eq_some_iff] at found ⊢
  obtain ⟨ofClass, isClass, isMethod⟩ := found
  exact ⟨ofClass, since.classes place ofClass isClass, isMethod⟩

end Since

variable {events : Events}

/-- A new scope binds nothing that needs an event. -/
theorem since_newScope
    (heap : Heap)
    (enclosing : Option ScopeRef)
    (bindings : Bindings Value) :
    Since events heap (heap.newScope enclosing bindings).2 := by
  refine ⟨grows_newScope heap enclosing bindings, fun _ _ => id, fun _ _ => id,
    fun name _ place made => ?_⟩
  rw [scope_newScope_of_lt heap enclosing bindings made]

/-- A new closure leaves those before it in their places. -/
theorem since_newFunction (heap : Heap) (closure : Closure) :
    Since events heap (heap.newFunction closure).2 := by
  refine ⟨.of_scopes_eq rfl, fun place known found => ?_, fun _ _ => id, fun _ _ _ _ => rfl⟩
  have inRange := (Array.getElem?_eq_some_iff.mp found).1
  simp only [function?, newFunction, Array.getElem?_push_lt inRange]
  exact (Array.getElem?_eq_getElem inRange).symm.trans found

/-- A new class leaves those before it in their places. -/
theorem since_newClass (heap : Heap) (made : Class) :
    Since events heap (heap.newClass made).2 := by
  refine ⟨.of_scopes_eq rfl, fun _ _ => id, fun place known found => ?_, fun _ _ _ _ => rfl⟩
  have inRange := (Array.getElem?_eq_some_iff.mp found).1
  simp only [class?, newClass, Array.getElem?_push_lt inRange]
  exact (Array.getElem?_eq_getElem inRange).symm.trans found

/-- A name bound by an event that binds it. -/
theorem since_define
    {task : Task}
    {machine : Machine}
    {name : String}
    (heap : Heap)
    (place : ScopeRef)
    (value : Value)
    (event : events task machine)
    (binds : task.binds? = some name) :
    Since events heap (heap.define place name value) := by
  refine ⟨grows_define heap place name value, fun _ _ => id, fun _ _ => id,
    fun other unbound scope made => ?_⟩
  have different : other ≠ name := by
    rintro rfl
    exact unbound task machine event binds
  by_cases same : scope = place
  · subst same
    rw [bindings_define_self heap scope name value made, Bindings.get?_set, if_neg different]
  · rw [scope_define_of_ne heap name value same]

end Heap

/-- The execution of a class declaration has put a method into a class.  The
method remembers the scope of the declaration or, if there is a superclass, the
scope inside it that binds the superclass. -/
inductive MethodOrigin (events : Events) (heap : Heap) (method : Closure) : Prop
  | plain
      {fuel : Nat}
      {name : Token}
      {functions : List FunctionDecl}
      {machine : Machine}
      (event : events (.execute (fuel + 1) (.classDecl name none functions)) machine)
      (since : Heap.Since events machine.heap heap)
      (member : method.declaration ∈ functions)
      (scope : method.scope = machine.scope)
  | subclass
      {fuel : Nat}
      {name : Token}
      {reference : Reference}
      {functions : List FunctionDecl}
      {machine : Machine}
      {parent : ClassRef}
      (event : events (.execute (fuel + 1) (.classDecl name (some reference) functions)) machine)
      (read : Eval.readVariable reference machine = .ok (.classObject parent) machine)
      (since : Heap.Since events (machine.subclassHeap name parent) heap)
      (member : method.declaration ∈ functions)
      (scope : method.scope = ⟨machine.heap.scopes.size⟩)

/-- Some task has put a function on the heap: the execution of its declaration, or
a task that fetched it as a method. -/
inductive FunctionOrigin (events : Events) (heap : Heap) : Closure -> Prop
  | declared
      {fuel : Nat}
      {declaration : FunctionDecl}
      {machine : Machine}
      (event : events (.execute (fuel + 1) (.function declaration)) machine)
      (since : Heap.Since events machine.heap heap) :
      FunctionOrigin events heap ⟨declaration, machine.scope, false⟩
  | fetched
      {task : Task}
      {before machine : Machine}
      {method : Closure}
      {receiver : InstanceRef}
      (event : events task before)
      (fetches : Fetches task before method receiver machine)
      (origin : MethodOrigin events machine.heap method)
      (since : Heap.Since events (machine.heap.bindMethod method receiver).2 heap) :
      FunctionOrigin events heap (machine.heap.bindMethod method receiver).1

/-- The execution of a class declaration has made a class.  The lineage of the
class has its own methods first and then, if there is a superclass, the lineage of
the superclass. -/
inductive ClassOrigin (events : Events) (heap : Heap) : Class -> Prop
  | plain
      {fuel : Nat}
      {name : Token}
      {functions : List FunctionDecl}
      {machine : Machine}
      (event : events (.execute (fuel + 1) (.classDecl name none functions)) machine)
      (since : Heap.Since events machine.heap heap) :
      ClassOrigin events heap ⟨name.lexeme, [Eval.methodTable machine.scope functions]⟩
  | subclass
      {fuel : Nat}
      {name : Token}
      {reference : Reference}
      {functions : List FunctionDecl}
      {machine : Machine}
      {parent : ClassRef}
      (event : events (.execute (fuel + 1) (.classDecl name (some reference) functions)) machine)
      (read : Eval.readVariable reference machine = .ok (.classObject parent) machine)
      (since : Heap.Since events machine.heap heap) :
      ClassOrigin events heap ⟨name.lexeme,
        Eval.methodTable ⟨machine.heap.scopes.size⟩ functions ::
          ((machine.heap.class? parent).map (·.lineage)).getD []⟩

/-- A class, and every method in its lineage, has its origin in one of some
tasks. -/
structure Class.Explained (events : Events) (heap : Heap) (made : Class) : Prop where
  origin : ClassOrigin events heap made
  methods : ∀ table ∈ made.lineage, ∀ (name : String) (method : Closure),
    table.get? name = some method -> MethodOrigin events heap method

/-- Every function on the heap, and every class with its methods, has its origin in
one of some tasks. -/
structure Heap.Explained (events : Events) (heap : Heap) : Prop where
  functions : ∀ (place : FunctionRef) (closure : Closure),
    heap.function? place = some closure -> FunctionOrigin events heap closure
  classes : ∀ (place : ClassRef) (found : Class),
    heap.class? place = some found -> found.Explained events heap

section Origins

variable {events more : Events} {before after : Heap}

/-- A closure of a declared function keeps its origin. -/
theorem FunctionOrigin.later
    {closure : Closure}
    (origin : FunctionOrigin events before closure)
    (since : Heap.Since events before after) :
    FunctionOrigin events after closure := by
  cases origin with
  | declared event earlier => exact .declared event (earlier.trans since)
  | fetched event fetches known earlier =>
    exact .fetched event fetches known (earlier.trans since)

/-- A method keeps its origin. -/
theorem MethodOrigin.later
    {method : Closure}
    (origin : MethodOrigin events before method)
    (since : Heap.Since events before after) :
    MethodOrigin events after method := by
  cases origin with
  | plain event earlier member scope => exact .plain event (earlier.trans since) member scope
  | subclass event read earlier member scope =>
    exact .subclass event read (earlier.trans since) member scope

/-- More tasks may have taken place. -/
theorem MethodOrigin.mono
    {method : Closure}
    (origin : MethodOrigin events before method)
    (included : ∀ task machine, events task machine -> more task machine) :
    MethodOrigin more before method := by
  cases origin with
  | plain event since inBody scope =>
    exact .plain (included _ _ event) (since.mono included) inBody scope
  | subclass event read since inBody scope =>
    exact .subclass (included _ _ event) read (since.mono included) inBody scope

/-- A class whose methods have origins keeps them. -/
theorem Class.Explained.later
    {made : Class}
    (explained : made.Explained events before)
    (since : Heap.Since events before after) :
    made.Explained events after := by
  refine ⟨?_, fun table member name method isMethod =>
    (explained.methods table member name method isMethod).later since⟩
  cases explained.origin with
  | plain event earlier => exact .plain event (earlier.trans since)
  | subclass event read earlier => exact .subclass event read (earlier.trans since)

/-- A later heap is explained, if what is new there is. -/
theorem Heap.Explained.later
    (explained : before.Explained events)
    (since : Since events before after)
    (functions : ∀ (place : FunctionRef) (closure : Closure),
      after.function? place = some closure ->
        before.function? place = some closure ∨ FunctionOrigin events after closure)
    (classes : ∀ (place : ClassRef) (found : Class), after.class? place = some found ->
      before.class? place = some found ∨ found.Explained events after) :
    after.Explained events := by
  refine ⟨fun place closure found => ?_, fun place made found => ?_⟩
  · rcases functions place closure found with known | origin
    · exact (explained.functions place closure known).later since
    · exact origin
  · rcases classes place made found with known | isExplained
    · exact (explained.classes place made known).later since
    · exact isExplained

/-- A heap explained by some events is explained by more of them. -/
theorem Heap.Explained.mono
    {heap : Heap}
    (explained : heap.Explained events)
    (included : ∀ task machine, events task machine -> more task machine) :
    heap.Explained more := by
  refine ⟨fun place closure found => ?_, fun place made found => ⟨?_, ?_⟩⟩
  · cases explained.functions place closure found with
    | declared event since => exact .declared (included _ _ event) (since.mono included)
    | fetched event fetches known since =>
      exact .fetched (included _ _ event) fetches (known.mono included) (since.mono included)
  · cases (explained.classes place made found).origin with
    | plain event since => exact .plain (included _ _ event) (since.mono included)
    | subclass event read since => exact .subclass (included _ _ event) read (since.mono included)
  · intro table member name method isMethod
    exact ((explained.classes place made found).methods table member name method isMethod).mono
      included

/-- A method that is found in a class of an explained heap has an origin. -/
theorem Heap.Explained.method
    {heap : Heap}
    {place : ClassRef}
    {name : String}
    {method : Closure}
    (explained : heap.Explained events)
    (found : heap.method? place name = some method) :
    MethodOrigin events heap method := by
  rw [method?, Option.bind_eq_some_iff] at found
  obtain ⟨ofClass, isClass, isMethod⟩ := found
  rw [Class.method?, List.findSome?_eq_some_iff] at isMethod
  obtain ⟨_, table, _, lineage, bound, -⟩ := isMethod
  exact (explained.classes place ofClass isClass).methods table (by simp [lineage]) name method
    bound

end Origins

/-- Some task has failed to read a method of the superclass in this way. -/
def RuntimeFault.Raised (events : Events) (fault : RuntimeFault) : Prop :=
  fault = .inheritedOutsideClass ∨ fault = .inheritedOutsideMethod ->
    ∃ fuel keyword method machine line,
      events (.evaluate (fuel + 1) (.inherited keyword method)) machine ∧
        Eval.readInherited keyword method machine = .error (.failure line fault) machine

/-- An interruption by a failure has been raised by some task. -/
def Interruption.Raised (events : Events) : Interruption -> Prop
  | failure _ fault => fault.Raised events
  | outputFull _ => True
  | outOfFuel => True

/-- Evaluation has gone on from one machine to another, both with explained
heaps. -/
structure Continues (events : Events) (before after : Machine) : Prop where
  since : Heap.Since events before.heap after.heap
  distances : after.distances = before.distances
  origin : before.heap.Explained events
  explained : after.heap.Explained events

/-- Whatever a task begins is one of the tasks, provided that evaluation has
gone on to there. -/
def Events.Closed (events : Events) : Prop :=
  ∀ ⦃task : Task⦄ ⦃machine : Machine⦄ ⦃inner : Task⦄ ⦃final : Machine⦄,
    events task machine -> Begins task machine inner final -> Continues events machine final ->
      events inner final

section Continuing

variable {events : Events} {machine : Machine}

theorem Continues.refl (explained : machine.heap.Explained events) :
    Continues events machine machine :=
  ⟨.refl _, rfl, explained, explained⟩

theorem Continues.trans
    {before middle after : Machine}
    (one : Continues events before middle)
    (other : Continues events middle after) :
    Continues events before after :=
  ⟨one.since.trans other.since, other.distances.trans one.distances, one.origin, other.explained⟩

/-- A failure stays raised when it gets a line. -/
theorem Interruption.Raised.orLine
    {interruption : Interruption}
    (raised : interruption.Raised events)
    (line : Nat) :
    (interruption.orLine line).Raised events := by
  cases interruption with
  | failure ownLine fault => cases ownLine <;> exact raised
  | outputFull _ => exact trivial
  | outOfFuel => exact trivial

end Continuing

end TreeWalk
