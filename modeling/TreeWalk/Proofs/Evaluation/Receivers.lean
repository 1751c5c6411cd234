import TreeWalk.Proofs.Evaluation.Following
import TreeWalk.Proofs.Evaluation.Recording
import TreeWalk.Proofs.Evaluation.Restoration
import TreeWalk.Proofs.Resolution.Nesting

/-!
# Receivers and superclasses of running methods

Wherever evaluation gets, the scopes from the current one outwards are those that
the text has around the place: one for each block and function, one for each method
that binds the receiver, and one for each class with a superclass that binds the
superclass.  The scope of a receiver was made by the task that fetched the method
for it, and the scope of a superclass by the execution of the class declaration.
No task binds the names of the receiver and the superclass, so they are still bound
to what they were bound to then.
-/

namespace TreeWalk

/-- A scope on the heap is there for what a frame says: it was made by a task, which
bound the receiver or the superclass in it, and it still has that binding. -/
inductive Frame.Opened (visited : Events) (heap : Heap) (place : ScopeRef) : Frame -> Prop
  | plain : Opened visited heap place .plain
  | receiver
      {owner : ClassDecl}
      {task : Task}
      {before machine : Machine}
      {method : Closure}
      {receiver : InstanceRef}
      (event : visited task before)
      (fetches : Fetches task before method receiver machine)
      (isPlace : place = (machine.heap.bindMethod method receiver).1.scope)
      (bound : (heap.scope place).bindings.get? selfName = some (.object receiver)) :
      Opened visited heap place (.receiver owner method.declaration)
  | superclass
      {owner : ClassDecl}
      {reference : Reference}
      {fuel : Nat}
      {machine : Machine}
      {parent : ClassRef}
      (event : visited (.execute (fuel + 1) owner.statement) machine)
      (read : Eval.readVariable reference machine = .ok (.classObject parent) machine)
      (isPlace : place = ⟨machine.heap.scopes.size⟩)
      (bound : (heap.scope place).bindings.get? superclassName = some (.classObject parent)) :
      Opened visited heap place (.superclass owner reference)

/-- From a place outwards up to the globals, the scopes are there for what some frames
say. -/
def Heap.Opens
    (visited : Events)
    (heap : Heap)
    (globals place : ScopeRef)
    (frames : List Frame) : Prop :=
  Heap.Chained heap globals (fun place frame => frame.Opened visited heap place) place frames

/-- No task binds the names of the receiver and the superclass. -/
def Events.Ordinary (events : Events) : Prop :=
  ∀ task machine name, events task machine -> task.binds? = some name ->
    Keyword.ofText? name = none

section Opened

variable {visited more events : Events} {before after : Heap} {globals place : ScopeRef}

/-- Ordinary events leave the receiver of a method's scope in place. -/
theorem Heap.Since.kept_self
    (since : Heap.Since events before after)
    (ordinary : events.Ordinary)
    (made : place.index < before.scopes.size) :
    (after.scope place).bindings.get? selfName = (before.scope place).bindings.get? selfName := by
  refine since.kept selfName (fun task machine event binds => ?_) place made
  exact absurd (ordinary task machine selfName event binds) (by decide)

/-- Ordinary events leave the superclass of a class's scope in place. -/
theorem Heap.Since.kept_superclass
    (since : Heap.Since events before after)
    (ordinary : events.Ordinary)
    (made : place.index < before.scopes.size) :
    (after.scope place).bindings.get? superclassName =
      (before.scope place).bindings.get? superclassName := by
  refine since.kept superclassName (fun task machine event binds => ?_) place made
  exact absurd (ordinary task machine superclassName event binds) (by decide)

/-- A scope opened by the fetch or the declaration of its frame still holds what that
event put there. -/
theorem Frame.Opened.later
    {frame : Frame}
    (opened : frame.Opened visited before place)
    (since : Heap.Since events before after)
    (ordinary : events.Ordinary)
    (made : place.index < before.scopes.size) :
    frame.Opened visited after place := by
  cases opened with
  | plain => exact .plain
  | receiver event fetches isPlace bound =>
    exact .receiver event fetches isPlace ((since.kept_self ordinary made).trans bound)
  | superclass event read isPlace bound =>
    exact .superclass event read isPlace ((since.kept_superclass ordinary made).trans bound)

/-- A scope opened by one of some tasks is opened by one of more of them. -/
theorem Frame.Opened.mono
    {frame : Frame}
    (opened : frame.Opened visited before place)
    (included : ∀ task machine, visited task machine -> more task machine) :
    frame.Opened more before place := by
  cases opened with
  | plain => exact .plain
  | receiver event fetches isPlace bound =>
    exact .receiver (included _ _ event) fetches isPlace bound
  | superclass event read isPlace bound =>
    exact .superclass (included _ _ event) read isPlace bound

/-- A chain of scopes opened frame by frame stays so under ordinary events. -/
theorem Heap.Opens.later
    {frames : List Frame}
    (opens : before.Opens visited globals place frames)
    (since : Heap.Since events before after)
    (ordinary : events.Ordinary) :
    after.Opens visited globals place frames :=
  Heap.Chained.grow opens since.grows fun _ _ made opened => opened.later since ordinary made

/-- A chain opened by some tasks is opened by more of them. -/
theorem Heap.Opens.mono
    {frames : List Frame}
    (opens : before.Opens visited globals place frames)
    (included : ∀ task machine, visited task machine -> more task machine) :
    before.Opens more globals place frames :=
  Heap.Chained.grow opens (.refl _) fun _ _ _ opened => opened.mono included

/-- A new scope is one more around the place. -/
theorem opens_newScope
    {heap : Heap}
    {frame : Frame}
    {frames : List Frame}
    {bindings : Bindings Value}
    (opens : (heap.newScope (some place) bindings).2.Opens visited globals place frames)
    (made : place.index < heap.scopes.size)
    (opened : frame.Opened visited (heap.newScope (some place) bindings).2
      (heap.newScope (some place) bindings).1) :
    (heap.newScope (some place) bindings).2.Opens visited globals
      (heap.newScope (some place) bindings).1 (frame :: frames) := by
  refine .inside ?_ ?_ made opened opens
  · simp [Heap.newScope]
  · rw [Heap.scope_newScope_self]

end Opened

/-! ## Nested tasks -/

section Nested

variable (roots : List Site) (visited : Events) (machine : Machine)

/-- The machine is at a site of a part, with a scope for everything that the text has
around the site. -/
def Part.Nested (part : Part) : Prop :=
  ∃ root ∈ roots, ∃ site nest, root.Under site nest ∧ site.part = part ∧
    machine.heap.Opens visited machine.globals machine.scope nest.frames

/-- A function comes from a site of its declaration, and remembers a scope with
everything around it that the text has around the site. -/
def Closure.Nested (heap : Heap) (globals : ScopeRef) (closure : Closure) : Prop :=
  ∃ root ∈ roots, ∃ site nest, root.Under site nest ∧ site.part = .function closure.declaration ∧
    heap.Opens visited globals closure.scope nest.frames

/-- A machine on which a task may begin: at a site of the part that the task is
about. -/
def Task.Nested : Task -> Prop
  | .evaluate _ value => Part.Nested roots visited machine (.expression value)
  | .each _ values => Part.Nested roots visited machine (.expressions values)
  | .store target value =>
    Part.Nested roots visited machine (.expression (.assign target value))
  | .execute _ step => Part.Nested roots visited machine (.statement step)
  | .sequence _ steps => Part.Nested roots visited machine (.statements steps)
  | .repeatWhile _ condition body =>
    Part.Nested roots visited machine (.statement (.loop condition body))
  | .superclass _ reference => Part.Nested roots visited machine (.superclass reference)
  | .invoke _ _ _ _ => True
  | .call _ _ callable => ∃ callee, machine.heap.callable? callee = some callable
  | .callClosure _ closure _ => closure.Nested roots visited machine.heap machine.globals

end Nested

/-- The visited tasks that began on machines with a given global scope, at sites of
some programs. -/
def nestedEvents (roots : List Site) (visited : Events) (globals : ScopeRef) : Events :=
  fun task machine =>
    visited task machine ∧ machine.globals = globals ∧
      globals.index < machine.heap.scopes.size ∧ task.Nested roots visited machine

/-- The global scope never changes. -/
theorem Begins.globals_eq
    {outer inner : Task}
    {middle final : Machine}
    (begins : Begins outer middle inner final) :
    final.globals = middle.globals := by
  rcases begins.getsTo_or_enters with getsTo | enters
  · exact getsTo.resumes.globals
  · cases enters <;> rfl

section Closing

variable {roots : List Site} {visited : Events} {globals : ScopeRef}

/-- The part that a nested task binds a name for is well-formed, so that the name is
no reserved word. -/
theorem ordinary_nestedEvents (sound : ∀ root ∈ roots, root.Sound) :
    (nestedEvents roots visited globals).Ordinary := by
  rintro task machine name ⟨-, -, -, nested⟩ binds
  cases task with
  | store target value =>
    obtain ⟨root, member, site, nest, under, part, -⟩ := nested
    have wellFormed := (under.within.sound (sound root member)).wellFormed
    rw [part, Part.WellFormed, Expr.WellFormed] at wellFormed
    cases binds
    exact wellFormed.1
  | execute fuel step =>
    obtain ⟨root, member, site, nest, under, part, -⟩ := nested
    have wellFormed := (under.within.sound (sound root member)).wellFormed
    rw [part, Part.WellFormed] at wellFormed
    cases step with
    | declare name initializer =>
      rw [Stmt.WellFormed] at wellFormed
      cases binds
      exact wellFormed.1
    | function declaration =>
      obtain ⟨name, parameters, body⟩ := declaration
      rw [Stmt.WellFormed, FunctionDecl.WellFormed] at wellFormed
      cases binds
      exact wellFormed.1
    | classDecl name superclass functions =>
      rw [Stmt.WellFormed] at wellFormed
      cases binds
      exact wellFormed.1
    | _ => cases binds
  | _ => cases binds

variable {heap : Heap} {method : Closure}

/-- Executing the declaration of a class with a superclass makes the scope that binds
the superclass. -/
theorem opens_subclassHeap
    {fuel : Nat}
    {owner : ClassDecl}
    {reference : Reference}
    {machine : Machine}
    {parent : ClassRef}
    {frames : List Frame}
    (event : nestedEvents roots visited globals (.execute (fuel + 1) owner.statement) machine)
    (read : Eval.readVariable reference machine = .ok (.classObject parent) machine)
    (sound : ∀ root ∈ roots, root.Sound)
    (opens : machine.heap.Opens visited globals machine.scope frames) :
    (machine.subclassHeap owner.name parent).Opens visited globals ⟨machine.heap.scopes.size⟩
      (.superclass owner reference :: frames) := by
  have ordinary : (nestedEvents roots visited globals).Ordinary := ordinary_nestedEvents sound
  have named := Heap.since_define machine.heap machine.scope .null event rfl
  have size := Heap.size_define machine.heap machine.scope owner.name.lexeme .null
  have made := Heap.Chained.made opens event.2.2.1
  rw [← size] at made ⊢
  refine opens_newScope ?_ made (.superclass event.1 read ?_ ?_)
  · exact (opens.later named ordinary).later (Heap.since_newScope _ _ _) ordinary
  · simp only [Heap.newScope, Machine.namingHeap, size]
  · rw [Heap.scope_newScope_self, Bindings.get?_set_self]

/-- A method comes from a site in the body of a class, and remembers a scope with
everything around it that the text has around it, up to the receiver. -/
theorem MethodOrigin.nested
    (origin : MethodOrigin (nestedEvents roots visited globals) heap method)
    (sound : ∀ root ∈ roots, root.Sound) :
    globals.index < heap.scopes.size ∧
      ∃ root ∈ roots, ∃ site owner nest, root.Under site (.method owner method.declaration nest) ∧
        site.part = .function method.declaration ∧
        heap.Opens visited globals method.scope (owner.frames ++ nest.frames) := by
  have ordinary : (nestedEvents roots visited globals).Ordinary := ordinary_nestedEvents sound
  have ofClass : ∀ {fuel : Nat} {owner : ClassDecl} {machine : Machine},
      nestedEvents roots visited globals (.execute (fuel + 1) owner.statement) machine ->
      method.declaration ∈ owner.methods -> ∃ root ∈ roots, ∃ site nest,
        root.Under site (.method owner method.declaration nest) ∧
        site.part = .function method.declaration ∧
        machine.heap.Opens visited globals machine.scope nest.frames := by
    rintro fuel owner machine ⟨-, rfl, -, root, isRoot, ⟨around, part, walk⟩, nest, under, rfl,
      opens⟩ member
    obtain ⟨inner, underMethod, innerPart⟩ := under.method member
    exact ⟨root, isRoot, inner, nest, underMethod, innerPart, opens⟩
  cases origin with
  | @plain fuel name functions machine event since member scope =>
    obtain ⟨root, isRoot, site, nest, under, part, opens⟩ :=
      ofClass (show nestedEvents _ _ _ (.execute _ (ClassDecl.statement ⟨name, none, functions⟩)) _
        from event) member
    refine ⟨Nat.lt_of_lt_of_le event.2.2.1 since.grows.size, root, isRoot, site, _, nest, under,
      part, ?_⟩
    rw [scope]
    exact opens.later since ordinary
  | @subclass fuel name reference functions machine parent event read since member scope =>
    have declares : nestedEvents roots visited globals
      (.execute (fuel + 1) (ClassDecl.statement ⟨name, some reference, functions⟩)) machine := event
    obtain ⟨root, isRoot, site, nest, under, part, opens⟩ := ofClass declares member
    have opensInside := opens_subclassHeap declares read sound opens
    refine ⟨?_, root, isRoot, site, _, nest, under, part, ?_⟩
    · refine Nat.lt_of_lt_of_le (Nat.lt_of_lt_of_le event.2.2.1 ?_) since.grows.size
      simp [Machine.subclassHeap, Machine.namingHeap, Heap.newScope, Heap.define]
    · rw [scope]
      exact opensInside.later since ordinary

/-- A method that is fetched for a receiver is a nested function, in whose outermost
scope the receiver is bound. -/
theorem nested_bindMethod
    {task : Task}
    {before machine : Machine}
    {receiver : InstanceRef}
    (event : visited task before)
    (fetches : Fetches task before method receiver machine)
    (origin : MethodOrigin (nestedEvents roots visited globals) machine.heap method)
    (sound : ∀ root ∈ roots, root.Sound) :
    Closure.Nested roots visited (machine.heap.bindMethod method receiver).2 globals
      (machine.heap.bindMethod method receiver).1 := by
  have ordinary : (nestedEvents roots visited globals).Ordinary := ordinary_nestedEvents sound
  obtain ⟨globalsMade, root, isRoot, site, owner, nest, under, part, opens⟩ := origin.nested sound
  refine ⟨root, isRoot, site, _, under, part, ?_⟩
  refine opens_newScope (opens.later (Heap.since_newScope _ _ _) ordinary)
    (Heap.Chained.made opens globalsMade) (.receiver event fetches rfl ?_)
  rw [Heap.scope_newScope_self, Bindings.get?_set_self]

/-- Every function that has its origin in a nested task is nested. -/
theorem FunctionOrigin.nested
    {closure : Closure}
    (origin : FunctionOrigin (nestedEvents roots visited globals) heap closure)
    (sound : ∀ root ∈ roots, root.Sound) :
    closure.Nested roots visited heap globals := by
  have ordinary : (nestedEvents roots visited globals).Ordinary := ordinary_nestedEvents sound
  cases origin with
  | declared event since =>
    obtain ⟨-, rfl, -, root, isRoot, ⟨around, part, walk⟩, nest, under, rfl, opens⟩ := event
    obtain ⟨inner, underFunction, innerPart⟩ := under.function
    exact ⟨root, isRoot, inner, nest, underFunction, innerPart, opens.later since ordinary⟩
  | fetched event fetches known since =>
    obtain ⟨root, isRoot, site, nest, under, part, opens⟩ :=
      nested_bindMethod event.1 fetches known sound
    exact ⟨root, isRoot, site, nest, under, part, opens.later since ordinary⟩

/-- A function that can be called is on the heap. -/
theorem function?_of_callable?
    {callee : Value}
    {closure : Closure}
    (found : heap.callable? callee = some (.closure closure)) :
    ∃ place, heap.function? place = some closure := by
  cases callee <;> simp [Heap.callable?] at found
  exact ⟨_, found⟩

/-- The initializer of a class that can be called is a method of the class. -/
theorem method?_of_callable?
    {callee : Value}
    {place : ClassRef}
    (found : heap.callable? callee = some (.ofClass place (some method))) :
    heap.method? place initializerName = some method := by
  cases callee <;> simp [Heap.callable?] at found
  obtain ⟨ofClass, isClass, rfl, isMethod⟩ := found
  rw [Heap.method?, isClass]
  exact isMethod

/-- Go to a part of a part in the same scope. -/
theorem Part.Nested.go
    {machine final : Machine}
    {part inner : Part}
    (nested : part.Nested roots visited machine)
    (goes : ∀ around walk, ∃ child ∈ (Site.mk around part walk).children, child.part = inner)
    (stays : ∀ nest : Nest, nest.enter part inner = nest)
    (opens : ∀ frames, machine.heap.Opens visited machine.globals machine.scope frames ->
      final.heap.Opens visited final.globals final.scope frames) :
    inner.Nested roots visited final := by
  obtain ⟨root, isRoot, ⟨around, samePart, walk⟩, nest, under, rfl, isOpen⟩ := nested
  obtain ⟨child, isChild, rfl⟩ := goes around walk
  have underChild := under.step isChild
  rw [stays] at underChild
  exact ⟨root, isRoot, child, nest, underChild, rfl, opens _ isOpen⟩

/-- Everything that a nested task begins is nested, because every function that is
called has its origin in a nested task. -/
theorem closed_nestedEvents
    (visits : ∀ {task inner : Task} {machine final : Machine}, visited task machine ->
      Begins task machine inner final -> visited inner final)
    (sound : ∀ root ∈ roots, root.Sound) :
    (nestedEvents roots visited globals).Closed := by
  intro task machine inner final event begins continues
  have ordinary : (nestedEvents roots visited globals).Ordinary := ordinary_nestedEvents sound
  have sameGlobals := begins.globals_eq
  obtain ⟨isVisited, isGlobal, globalsMade, nested⟩ := event
  refine ⟨visits isVisited begins, sameGlobals.trans isGlobal,
    Nat.lt_of_lt_of_le globalsMade continues.since.grows.size, ?_⟩
  -- The scopes of a nest hold reserved names, which ordinary events do not bind.
  have later : ∀ {place frames}, machine.heap.Opens visited machine.globals place frames ->
      final.heap.Opens visited final.globals place frames := by
    intro place frames opens
    rw [sameGlobals]
    exact opens.later continues.since ordinary
  have stays : final.scope = machine.scope -> ∀ frames,
      machine.heap.Opens visited machine.globals machine.scope frames ->
        final.heap.Opens visited final.globals final.scope frames :=
    fun same frames opens => same ▸ later opens
  have evaluated : ∀ {fuel value result} {before after : Machine},
      Eval.evaluate fuel value before = .ok result after -> after.scope = before.scope :=
    fun ended => (Task.Ends.evaluate ended).resumes.scope
  have executed : ∀ {fuel step flow} {before after : Machine},
      Eval.execute fuel step before = .ok flow after -> after.scope = before.scope :=
    fun ended => (Task.Ends.execute ended).resumes.scope
  have head : ∀ {child : Site} {rest : List Site}, child ∈ child :: rest :=
    List.mem_cons_self
  have next : ∀ {first child : Site} {rest : List Site}, child ∈ first :: child :: rest :=
    List.mem_cons_of_mem _ List.mem_cons_self
  cases begins with
  | grouping | unary | binaryLeft | logicalLeft | assigned | callee | object | firstOfEach
  | expression | print | initializer | condition | returned | superclass | firstOfSequence
  | loopCondition =>
    exact nested.go (fun _ _ => ⟨_, head, rfl⟩) (fun _ => rfl) (stays rfl)
  | binaryRight ended | logicalRight ended | arguments ended | restOfEach ended
  | thenBranch ended | loopBody ended =>
    exact nested.go (fun _ _ => ⟨_, next, rfl⟩) (fun _ => rfl) (stays (evaluated ended))
  | changedObject => exact nested.go (fun _ _ => ⟨_, next, rfl⟩) (fun _ => rfl) (stays rfl)
  | fieldValue ended =>
    exact nested.go (fun _ _ => ⟨_, head, rfl⟩) (fun _ => rfl) (stays (evaluated ended))
  | elseBranch ended =>
    exact nested.go (fun _ _ => ⟨_, List.mem_cons_of_mem _ next, rfl⟩) (fun _ => rfl)
      (stays (evaluated ended))
  | restOfSequence ended =>
    exact nested.go (fun _ _ => ⟨_, next, rfl⟩) (fun _ => rfl) (stays (executed ended))
  | loop => exact nested
  | store ended =>
    obtain ⟨root, isRoot, site, nest, under, part, opens⟩ := nested
    exact ⟨root, isRoot, site, nest, under, part, stays (evaluated ended) _ opens⟩
  | invoke => exact trivial
  | block | body =>
    obtain ⟨root, isRoot, ⟨around, part, walk⟩, nest, under, rfl, opens⟩ := nested
    refine ⟨root, isRoot, _, _, under.step head, rfl, ?_⟩
    exact opens_newScope (later opens) (Heap.Chained.made opens (isGlobal ▸ globalsMade)) .plain
  | loopAgain ended _ done =>
    obtain ⟨root, isRoot, site, nest, under, part, opens⟩ := nested
    exact ⟨root, isRoot, site, nest, under, part,
      stays ((executed done).trans (evaluated ended)) _ opens⟩
  | call found => exact ⟨_, found⟩
  -- A function that is called is nested where it was declared, and a method where it was fetched.
  | callFunction =>
    obtain ⟨callee, found⟩ := nested
    obtain ⟨place, isFunction⟩ := function?_of_callable? found
    rw [Task.Nested, isGlobal]
    exact (continues.origin.functions place _ isFunction).nested sound
  | setUp =>
    obtain ⟨callee, found⟩ := nested
    have isMethod := method?_of_callable? found
    rw [Task.Nested, isGlobal]
    exact nested_bindMethod isVisited (.instantiation isMethod)
      ((continues.origin.method isMethod).later (.of_eq rfl rfl rfl)) sound

end Closing

/-- The machine is in a method, with some number of scopes opened since, which a task
has fetched for a receiver: the scope that this task made for the receiver is the
one around those, and it binds the receiver. -/
def Machine.Serves
    (visited : Events)
    (machine : Machine)
    (declaration : FunctionDecl)
    (depth : Nat)
    (receiver : InstanceRef) : Prop :=
  ∃ task before method fetched, visited task before ∧
    Fetches task before method receiver fetched ∧ method.declaration = declaration ∧
    machine.heap.ancestor machine.scope depth =
      (fetched.heap.bindMethod method receiver).1.scope ∧
    machine.heap.getAt machine.scope depth selfName = .object receiver

/-- The machine is in a class that has a superclass, and the scope at a distance is
the one that the execution of the declaration of the class has made.  It binds the
class that the reference to the superclass meant there. -/
def Machine.Inherits
    (visited : Events)
    (machine : Machine)
    (owner : ClassDecl)
    (reference : Reference)
    (distance : Nat)
    (parent : ClassRef) : Prop :=
  ∃ fuel declared, visited (.execute (fuel + 1) owner.statement) declared ∧
    Eval.readVariable reference declared = .ok (.classObject parent) declared ∧
    machine.heap.ancestor machine.scope distance = ⟨declared.heap.scopes.size⟩ ∧
    machine.heap.getAt machine.scope distance superclassName = .classObject parent

section Reading

variable
  {roots : List Site}
  {visited : Events}
  {machine : Machine}
  {nest : Nest}
  {owner : ClassDecl}
  {declaration : FunctionDecl}
  {depth : Nat}

/-- Inside a method, the scope at its depth holds the receiver of the fetch that opened
it. -/
theorem serves_of_opens
    (opens : machine.heap.Opens visited machine.globals machine.scope nest.frames)
    (inside : Nest.InMethod owner declaration depth nest) :
    ∃ receiver, machine.Serves visited declaration depth receiver := by
  have opened := (Heap.Chained.ancestor opens inside.getElem?_frames).1
  generalize place : machine.heap.ancestor machine.scope depth = scope at opened
  cases opened with
  | @receiver _ task before fetched method receiver event fetches isPlace bound =>
    refine ⟨receiver, task, before, method, fetched, event, fetches, rfl, place.trans isPlace, ?_⟩
    rw [Heap.getAt, place, bound]
    rfl

/-- Inside a method of a class with a superclass, the scope around the receiver's holds
the parent of that declaration. -/
theorem inherits_of_opens
    {reference : Reference}
    (opens : machine.heap.Opens visited machine.globals machine.scope nest.frames)
    (inside : Nest.InMethod owner declaration depth nest)
    (inherits : owner.superclass = some reference) :
    ∃ parent, machine.Inherits visited owner reference (depth + 1) parent := by
  have opened := (Heap.Chained.ancestor opens (inside.getElem?_frames_superclass inherits)).1
  generalize place : machine.heap.ancestor machine.scope (depth + 1) = scope at opened
  cases opened with
  | @superclass _ _ fuel declared parent event read isPlace bound =>
    refine ⟨parent, fuel, declared, event, read, place.trans isPlace, ?_⟩
    rw [Heap.getAt, place, bound]
    rfl

section Keywords

variable
  {keyword : Reference}
  (sound : ∀ root ∈ roots, root.Sound ∧ root.LiesIn .program)
  (filed : ∀ root ∈ roots, keyword.id ∈ root.part.ids ->
    machine.distances[keyword.id]? = root.outcome.distances[keyword.id]?)

include sound filed

/-- Evaluating `this` gives the receiver for which the innermost method around it was
fetched. -/
theorem Part.Nested.self
    (nested : (Part.expression (.self keyword)).Nested roots visited machine) :
    ∃ root ∈ roots, ∃ site nest owner declaration depth receiver, root.Under site nest ∧
      site.part = .expression (.self keyword) ∧ Nest.InMethod owner declaration depth nest ∧
      machine.Serves visited declaration depth receiver ∧
      Eval.readVariable keyword machine = .ok (.object receiver) machine := by
  obtain ⟨root, isRoot, ⟨around, part, walk⟩, nest, under, rfl, opens⟩ := nested
  obtain ⟨isSound, start⟩ := sound root isRoot
  obtain ⟨spelled, owner, declaration, depth, inside, isFiled⟩ := under.filed_self isSound start
  obtain ⟨receiver, serves⟩ := serves_of_opens opens inside
  have member := under.within.ids_subset isSound
    (show keyword.id ∈ (Part.expression (.self keyword)).ids by simp [Part.ids, Expr.ids])
  refine ⟨root, isRoot, _, nest, owner, declaration, depth, receiver, under, rfl, inside, serves,
    ?_⟩
  obtain ⟨-, -, -, -, -, -, -, -, bound⟩ := serves
  unfold Eval.readVariable
  rw [filed root isRoot member, isFiled]
  dsimp only
  rw [spelled, bound]

/-- Evaluating `super` with the name of a method looks the method up in the class
that was the superclass of the innermost class around it when that was declared, and
binds it to the receiver for which the innermost method was fetched. -/
theorem Part.Nested.inherited
    {name : Token}
    (nested : (Part.expression (.inherited keyword name)).Nested roots visited machine) :
    ∃ root ∈ roots, ∃ site nest owner declaration depth reference receiver parent,
      root.Under site nest ∧ site.part = .expression (.inherited keyword name) ∧
      Nest.InMethod owner declaration depth nest ∧ owner.superclass = some reference ∧
      machine.Serves visited declaration depth receiver ∧
      machine.Inherits visited owner reference (depth + 1) parent ∧
      Eval.readInherited keyword name machine =
        (match machine.heap.method? parent name.lexeme with
        | some found => Eval.bound found receiver
        | none => Eval.fail name.line (.undefinedProperty name.lexeme)) machine := by
  obtain ⟨root, isRoot, ⟨around, part, walk⟩, nest, under, rfl, opens⟩ := nested
  obtain ⟨isSound, start⟩ := sound root isRoot
  obtain ⟨owner, declaration, depth, reference, inside, superclass, isFiled⟩ :=
    under.filed_inherited isSound start
  obtain ⟨receiver, serves⟩ := serves_of_opens opens inside
  obtain ⟨parent, inherits⟩ := inherits_of_opens opens inside superclass
  have member := under.within.ids_subset isSound
    (show keyword.id ∈ (Part.expression (.inherited keyword name)).ids by
      simp [Part.ids, Expr.ids])
  refine ⟨root, isRoot, _, nest, owner, declaration, depth, reference, receiver, parent, under, rfl,
    inside, superclass, serves, inherits, ?_⟩
  obtain ⟨-, -, -, -, -, -, -, -, isReceiver⟩ := serves
  obtain ⟨-, -, -, -, -, isParent⟩ := inherits
  exact Eval.readInherited_of_bound ((filed root isRoot member).trans isFiled) isParent isReceiver
    name

end Keywords
end Reading
end TreeWalk
