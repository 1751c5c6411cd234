import TreeWalk.Proofs.Evaluation.Receivers
import TreeWalk.Proofs.Session.KeptDistances
import TreeWalk.Proofs.Session.Restoration

/-!
# Receivers and superclasses over a session

Methods may outlive the run that declared their class, and bound methods the run
that fetched them.  A chronicle is the history of a session together with all the
tasks that its runs have visited.  Over a whole chronicle, `this` is the receiver
that the innermost method around it was fetched for, and `super` means the class
that was the superclass when the innermost class around it was declared.
-/

namespace TreeWalk

/-- Both names that methods have bound for them are bound in one heap as they were in
another one, in all the scopes that were there. -/
def Heap.KeepsReceivers (before after : Heap) : Prop :=
  ∀ place : ScopeRef, place.index < before.scopes.size ->
    (after.scope place).bindings.get? selfName = (before.scope place).bindings.get? selfName ∧
      (after.scope place).bindings.get? superclassName =
        (before.scope place).bindings.get? superclassName

/-- Ordinary events keep the receivers of all methods. -/
theorem Heap.Since.keepsReceivers
    {events : Events}
    {before after : Heap}
    (since : Heap.Since events before after)
    (ordinary : events.Ordinary) :
    before.KeepsReceivers after :=
  fun _ made => ⟨since.kept_self ordinary made, since.kept_superclass ordinary made⟩

section Runs

variable {events : Events} {machine : Machine}

namespace Session

variable {roots : List Site} {visited : Events} {globals : ScopeRef} {fuel : Nat} {echo : Bool}

/-- The machine is about to interpret a program that lies outside of everything, and
all tasks on the way are among the visited ones. -/
structure Underway
    (roots : List Site)
    (visited : Events)
    (globals : ScopeRef)
    (fuel : Nat)
    (echo : Bool)
    (program : List Stmt)
    (machine : Machine) : Prop where
  explained : machine.heap.Explained (nestedEvents roots visited globals)
  visits : ∀ task final, Visits fuel echo program machine task final -> visited task final
  isGlobal : machine.globals = globals
  globalsMade : globals.index < machine.heap.scopes.size
  nested : (Part.statements program).Nested roots visited machine

/-- The first statement is a nested task. -/
theorem Underway.first
    {first : Stmt}
    {rest : List Stmt}
    (underway : Underway roots visited globals fuel echo (first :: rest) machine) :
    nestedEvents roots visited globals (topLevelTask fuel first) machine := by
  have nested : (Part.statement first).Nested roots visited machine :=
    underway.nested.go (fun _ _ => ⟨_, List.mem_cons_self, rfl⟩) (fun _ => rfl) fun _ => id
  refine ⟨underway.visits _ _ (.first .start), underway.isGlobal, underway.globalsMade, ?_⟩
  cases first
  case expression value =>
    exact nested.go (fun _ _ => ⟨_, List.mem_cons_self, rfl⟩) (fun _ => rfl) fun _ => id
  all_goals exact nested

/-- After the first statement, the rest is underway. -/
theorem Underway.rest
    {first : Stmt}
    {rest : List Stmt}
    {middle : Machine}
    (underway : Underway roots visited globals fuel echo (first :: rest) machine)
    (closed : (nestedEvents roots visited globals).Closed)
    (sound : ∀ root ∈ roots, root.Sound)
    (done : executeTopLevel fuel echo first machine = .ok () middle) :
    Underway roots visited globals fuel echo rest middle ∧
      Continues (nestedEvents roots visited globals) machine middle := by
  have judged : (explainedInvariant closed machine.distances).Judged
      (executeTopLevel fuel echo first) machine _ :=
    (explainedInvariant closed machine.distances).judged_executeTopLevel echo underway.first
  obtain ⟨resumes, -⟩ := judged.ok ⟨rfl, underway.explained⟩ done
  have continues := judged.continues underway.explained
  rw [Eval.left_of_ok done] at continues
  refine ⟨⟨continues.explained, fun task final visits => ?_, ?_, ?_, ?_⟩, continues⟩
  · exact underway.visits task final (.later done visits)
  · exact resumes.globals.trans underway.isGlobal
  · exact Nat.lt_of_lt_of_le underway.globalsMade continues.since.grows.size
  · refine underway.nested.go
      (fun _ _ => ⟨_, List.mem_cons_of_mem _ List.mem_cons_self, rfl⟩) (fun _ => rfl) ?_
    intro frames opens
    rw [resumes.globals, resumes.scope]
    exact opens.later continues.since (ordinary_nestedEvents sound)

/-- Every task that interpreting a program visits is nested. -/
theorem Visits.nested
    {program : List Stmt}
    {task : Task}
    {final : Machine}
    (visits : Visits fuel echo program machine task final)
    (underway : Underway roots visited globals fuel echo program machine)
    (closed : (nestedEvents roots visited globals).Closed)
    (sound : ∀ root ∈ roots, root.Sound) :
    nestedEvents roots visited globals task final ∧
      Continues (nestedEvents roots visited globals) machine final := by
  induction visits with
  | first visits => exact visits.continues closed underway.first underway.explained
  | later done _ inductionHypothesis =>
    obtain ⟨rest, continues⟩ := underway.rest closed sound done
    obtain ⟨event, further⟩ := inductionHypothesis rest
    exact ⟨event, continues.trans further⟩

/-- Interpreting a program goes on from explained heaps to explained heaps, and if it
is interrupted by a failure, a nested task has raised it. -/
theorem Underway.interpret
    {program : List Stmt}
    (underway : Underway roots visited globals fuel echo program machine)
    (closed : (nestedEvents roots visited globals).Closed)
    (sound : ∀ root ∈ roots, root.Sound)
    (executed : Nat) :
    Continues (nestedEvents roots visited globals) machine
        (interpret fuel echo program executed machine).2.2 ∧
      ∀ interruption, (interpret fuel echo program executed machine).2.1 = some interruption ->
        interruption.Raised (nestedEvents roots visited globals) := by
  induction program generalizing machine executed with
  | nil => exact ⟨.refl underway.explained, nofun⟩
  | cons first rest inductionHypothesis =>
    have judged : (explainedInvariant closed machine.distances).Judged
        (executeTopLevel fuel echo first) machine _ :=
      (explainedInvariant closed machine.distances).judged_executeTopLevel echo underway.first
    rw [Session.interpret]
    cases outcome : executeTopLevel fuel echo first machine with
    | error interruption after =>
      have continues := judged.continues underway.explained
      rw [Eval.left_of_error outcome] at continues
      refine ⟨continues, fun other same => ?_⟩
      cases same
      exact judged.raised underway.explained outcome
    | ok result after =>
      obtain ⟨later, continues⟩ := underway.rest closed sound outcome
      obtain ⟨further, raised⟩ := inductionHypothesis later (executed + 1)
      exact ⟨continues.trans further, raised⟩

end Session
end Runs

section More

variable
  {roots more : List Site}
  {visited later : Events}
  {machine : Machine}
  (included : roots ⊆ more)
  (visits : ∀ task machine, visited task machine -> later task machine)

include included visits

/-- A nested part is nested among more roots, tasks and later machines. -/
theorem Part.Nested.mono
    {part : Part}
    (nested : part.Nested roots visited machine) :
    part.Nested more later machine := by
  obtain ⟨root, isRoot, site, nest, under, samePart, opens⟩ := nested
  exact ⟨root, included isRoot, site, nest, under, samePart, opens.mono visits⟩

/-- Nested events are such among more roots and tasks. -/
theorem nestedEvents_mono
    {globals : ScopeRef}
    {task : Task}
    (event : nestedEvents roots visited globals task machine) :
    nestedEvents more later globals task machine := by
  obtain ⟨isVisited, isGlobal, globalsMade, nested⟩ := event
  refine ⟨visits _ _ isVisited, isGlobal, globalsMade, ?_⟩
  cases task with
  | invoke fuel callee paren arguments => exact trivial
  | call fuel arguments callable => exact nested
  | callClosure fuel closure arguments =>
    obtain ⟨root, isRoot, site, nest, under, part, opens⟩ := nested
    exact ⟨root, included isRoot, site, nest, under, part, opens.mono visits⟩
  | evaluate | each | store | execute | sequence | repeatWhile | superclass =>
    exact Part.Nested.mono included visits nested

end More

namespace Session

/-- The tasks visited so far, and those that one more run visits. -/
def visitedAfter
    (session : Session)
    (fuel : Nat)
    (source : String)
    (visited : Events) : Events :=
  fun task machine => visited task machine ∨
    Visits fuel session.echo (session.program source) (session.ready source) task machine

/-- A session that runs have led to, the programs that were accepted on the way, and
the tasks that were visited. -/
inductive Chronicle : Session -> List Site -> Events -> Prop
  | fresh (clock : Clock) (output : Output) :
      Chronicle (.fresh clock output) [] fun _ _ => False
  | echo
      {session : Session}
      {roots : List Site}
      {visited : Events}
      (past : Chronicle session roots visited)
      (echo : Bool) :
      Chronicle { session with echo := echo } roots visited
  | accepted
      {session after : Session}
      {roots : List Site}
      {visited : Events}
      {source : String}
      {fuel : Nat}
      {result : RunResult}
      (past : Chronicle session roots visited)
      (accepts : session.staticErrors source = [])
      (runs : session.run fuel source = some (result, after)) :
      Chronicle after (session.root source :: roots) (session.visitedAfter fuel source visited)
  | rejected
      {session after : Session}
      {roots : List Site}
      {visited : Events}
      {source : String}
      {fuel : Nat}
      {result : RunResult}
      (past : Chronicle session roots visited)
      (rejects : session.staticErrors source ≠ [])
      (runs : session.run fuel source = some (result, after)) :
      Chronicle after roots visited

variable
  {session : Session}
  {roots : List Site}
  {visited : Events}
  {source : String}
  {fuel : Nat}

/-- A chronicle is a history. -/
theorem Chronicle.history (past : Chronicle session roots visited) : History session roots := by
  induction past with
  | fresh clock output => exact .fresh clock output
  | echo _ echo inductionHypothesis => exact .echo inductionHypothesis echo
  | accepted _ accepts runs inductionHypothesis => exact .accepted inductionHypothesis accepts runs
  | rejected _ rejects runs inductionHypothesis => exact .rejected inductionHypothesis rejects runs

/-- Every history has a chronicle. -/
theorem History.exists_chronicle (past : History session roots) :
    ∃ visited, Chronicle session roots visited := by
  induction past with
  | fresh clock output => exact ⟨_, .fresh clock output⟩
  | echo _ echo inductionHypothesis =>
    obtain ⟨visited, chronicle⟩ := inductionHypothesis
    exact ⟨visited, .echo chronicle echo⟩
  | accepted _ accepts runs inductionHypothesis =>
    obtain ⟨visited, chronicle⟩ := inductionHypothesis
    exact ⟨_, .accepted chronicle accepts runs⟩
  | rejected _ rejects runs inductionHypothesis =>
    obtain ⟨visited, chronicle⟩ := inductionHypothesis
    exact ⟨visited, .rejected chronicle rejects runs⟩

/-- Whatever a visited task begins is visited. -/
theorem Visits.begins
    {echo : Bool}
    {program : List Stmt}
    {task inner : Task}
    {machine middle final : Machine}
    (visits : Visits fuel echo program machine task middle)
    (begins : Begins task middle inner final) :
    Visits fuel echo program machine inner final := by
  induction visits with
  | first visits => exact .first (visits.further begins)
  | later done _ inductionHypothesis => exact .later done (inductionHypothesis begins)

/-- A program lies outside of everything. -/
theorem root_liesIn (session : Session) (source : String) :
    (session.root source).LiesIn .program :=
  ⟨rfl, fun _ => rfl, trivial⟩

/-- The roots of a history are sound programs. -/
theorem History.sound
    (past : History session roots)
    {root : Site}
    (member : root ∈ roots) :
    root.Sound ∧ root.LiesIn .program := by
  obtain ⟨earlier, text, accepted, rfl⟩ := past.exists_source member
  exact ⟨root_sound accepted, root_liesIn earlier text⟩

/-- All that a session has visited was nested, and everything on its heap has its
origin there. -/
structure Recorded (session : Session) (roots : List Site) (visited : Events) : Prop where
  explained : session.machine.heap.Explained (nestedEvents roots visited session.machine.globals)
  nested : ∀ task machine, visited task machine ->
    nestedEvents roots visited session.machine.globals task machine
  begins : ∀ {task inner : Task} {machine final : Machine}, visited task machine ->
    Begins task machine inner final -> visited inner final

/-- Everything is ready for a run. -/
theorem Recorded.underway
    (recorded : session.Recorded roots visited)
    (past : History session roots)
    (fuel : Nat)
    (source : String) :
    Underway (session.root source :: roots) (session.visitedAfter fuel source visited)
      session.machine.globals fuel session.echo (session.program source)
      (session.ready source) := by
  refine ⟨?_, fun _ _ => .inr, rfl, past.consistent.faithful.globalsMade, ?_⟩
  · exact recorded.explained.mono fun task machine =>
      nestedEvents_mono (List.subset_cons_self _ _) fun _ _ => .inl
  · refine ⟨_, List.mem_cons_self, session.root source, .program, .start, rfl, ?_⟩
    rw [ready, Machine.noteDistances]
    dsimp only
    rw [past.consistent.atGlobals]
    exact .outermost

section Run

variable (past : History session roots) (accepts : session.staticErrors source = [])

include past accepts

/-- The roots of a history, with that of an accepted source, are sound programs. -/
theorem sound_roots : ∀ root ∈ session.root source :: roots, root.Sound ∧ root.LiesIn .program := by
  intro root member
  rcases List.mem_cons.mp member with rfl | isOld
  · exact ⟨root_sound accepts, root_liesIn session source⟩
  · exact past.sound isOld

variable (recorded : session.Recorded roots visited)

include recorded

/-- What a nested event begins is a nested event. -/
theorem Recorded.closed (fuel : Nat) :
    (nestedEvents (session.root source :: roots) (session.visitedAfter fuel source visited)
      session.machine.globals).Closed := by
  refine closed_nestedEvents (fun isVisited begins => ?_) fun root member =>
    (sound_roots past accepts root member).1
  exact isVisited.imp (recorded.begins · begins) (·.begins begins)

/-- Every task that a run visits is nested, and evaluation has gone on to there. -/
theorem Recorded.visits
    {task : Task}
    {machine : Machine}
    (visits : Visits fuel session.echo (session.program source) (session.ready source)
      task machine) :
    nestedEvents (session.root source :: roots) (session.visitedAfter fuel source visited)
        session.machine.globals task machine ∧
      Continues (nestedEvents (session.root source :: roots)
        (session.visitedAfter fuel source visited) session.machine.globals)
        (session.ready source) machine :=
  visits.nested (recorded.underway past fuel source) (recorded.closed past accepts fuel)
    fun root member => (sound_roots past accepts root member).1

/-- An accepted run records what it visits. -/
theorem Recorded.run
    {after : Session}
    {result : RunResult}
    (runs : session.run fuel source = some (result, after)) :
    after.Recorded (session.root source :: roots) (session.visitedAfter fuel source visited) := by
  have underway := recorded.underway past fuel source
  have continues := (underway.interpret (recorded.closed past accepts fuel)
    (fun root member => (sound_roots past accepts root member).1) 0).1
  have sameGlobals := (restored_run runs).2.1
  refine ⟨?_, ?_, fun isVisited begins =>
    isVisited.imp (recorded.begins · begins) (·.begins begins)⟩
  · rw [sameGlobals, eq_of_run accepts runs]
    exact continues.explained
  · rw [sameGlobals]
    rintro task machine (isOld | isNew)
    · exact nestedEvents_mono (List.subset_cons_self _ _) (fun _ _ => .inl)
        (recorded.nested task machine isOld)
    · exact (recorded.visits past accepts isNew).1

end Run

/-- The heap of a session is explained by its chronicle. -/
theorem Chronicle.recorded (past : Chronicle session roots visited) :
    session.Recorded roots visited := by
  induction past with
  | fresh clock output =>
    refine ⟨⟨?_, ?_⟩, fun _ _ isVisited => isVisited.elim, fun isVisited => isVisited.elim⟩
    · intro place closure found
      simp [Session.fresh, Machine.fresh, Heap.newScope, Heap.newNative, Heap.function?] at found
    · intro place made found
      simp [Session.fresh, Machine.fresh, Heap.newScope, Heap.newNative, Heap.class?] at found
  | echo _ echo inductionHypothesis =>
    exact ⟨inductionHypothesis.explained, inductionHypothesis.nested, inductionHypothesis.begins⟩
  | accepted past accepts runs inductionHypothesis =>
    exact inductionHypothesis.run past.history accepts runs
  | rejected _ rejects runs inductionHypothesis =>
    rw [run_of_rejected rejects] at runs
    cases runs
    exact ⟨inductionHypothesis.explained, inductionHypothesis.nested, inductionHypothesis.begins⟩

/-- Where a run evaluates a keyword, the machine has the distance that was filed for
it on the walk over its program. -/
theorem History.filed_keyword
    {steps : Nat}
    {value : Expr}
    {machine : Machine}
    {keyword : Reference}
    (past : History session roots)
    (accepts : session.staticErrors source = [])
    (visits : Visits fuel session.echo (session.program source) (session.ready source)
      (.evaluate steps value) machine)
    (inside : keyword.id ∈ value.ids)
    {root : Site}
    (member : root ∈ session.root source :: roots)
    (owns : keyword.id ∈ root.part.ids) :
    machine.distances[keyword.id]? = root.outcome.distances[keyword.id]? := by
  obtain ⟨site, part, located⟩ := visits.ready rfl (located_root past.consistent accepts)
  obtain ⟨other, isOther, sound, -, within, filed⟩ := located.charted
  have inPart : keyword.id ∈ site.part.ids := by
    rw [part]
    exact inside
  have disjoint : Disjoint (session.root source :: roots) :=
    .cons (fun _ => past.consistent.disjoint_root accepts) past.keeps.2
  have same := disjoint.eq_of_mem isOther member (within.ids_subset sound inPart) owns
  rw [filed _ inPart, same]

/-! ## Receivers and superclasses -/

section Visited

variable
  {task : Task}
  {machine : Machine}
  (past : Chronicle session roots visited)
  (accepts : session.staticErrors source = [])
  (visits : Visits fuel session.echo (session.program source) (session.ready source) task machine)

include past accepts

/-- Interpreting a program keeps the receivers, and is interrupted by no failure to
find one. -/
theorem Chronicle.interpreted (fuel : Nat) :
    session.machine.heap.KeepsReceivers (session.interpreted fuel source).2.2.heap ∧
      ∀ line fault, (session.interpreted fuel source).2.1 = some (.failure line fault) ->
        fault.Raised (nestedEvents (session.root source :: roots)
          (session.visitedAfter fuel source visited) session.machine.globals) := by
  have sound := fun root member => (sound_roots past.history accepts root member).1
  obtain ⟨continues, raised⟩ := (past.recorded.underway past.history fuel source).interpret
    (past.recorded.closed past.history accepts fuel) sound 0
  exact ⟨continues.since.keepsReceivers (ordinary_nestedEvents sound),
    fun _ _ failed => raised _ failed⟩

include visits

/-- No task of a run changes the receivers that are bound: not up to its beginning,
not by what it begins, and not by what it evaluates or executes. -/
theorem Chronicle.keepsReceivers :
    session.machine.heap.KeepsReceivers machine.heap ∧
      (∀ inner final, Begins task machine inner final ->
        machine.heap.KeepsReceivers final.heap) ∧
      (∀ steps value, task = .evaluate steps value ->
        machine.heap.KeepsReceivers ((Eval.evaluate steps value).left machine).heap) ∧
      ∀ steps step, task = .execute steps step ->
        machine.heap.KeepsReceivers ((Eval.execute steps step).left machine).heap := by
  have sound := fun root member => (sound_roots past.history accepts root member).1
  have ordinary : (nestedEvents (session.root source :: roots)
      (session.visitedAfter fuel source visited) session.machine.globals).Ordinary :=
    ordinary_nestedEvents sound
  have closed := past.recorded.closed past.history accepts fuel
  obtain ⟨event, continues⟩ := past.recorded.visits past.history accepts visits
  refine ⟨continues.since.keepsReceivers ordinary, ?_, ?_, ?_⟩
  · intro inner final begins
    have visits : task.Visits machine inner final := .further .start begins
    exact (visits.continues closed event continues.explained).2.since.keepsReceivers ordinary
  · rintro steps value rfl
    have judged : (explainedInvariant closed machine.distances).Judged
        (Eval.evaluate steps value) machine _ :=
      (explainedInvariant closed machine.distances).judged_evaluate event
    exact (judged.continues continues.explained).since.keepsReceivers ordinary
  · rintro steps step rfl
    have judged : (explainedInvariant closed machine.distances).Judged
        (Eval.execute steps step) machine _ :=
      (explainedInvariant closed machine.distances).judged_execute event
    exact (judged.continues continues.explained).since.keepsReceivers ordinary

/-- Every class on the heap comes from the execution of its declaration, which has
joined its own methods to the lineage of its superclass. -/
theorem Chronicle.classOrigin
    {place : ClassRef}
    {made : Class}
    (found : machine.heap.class? place = some made) :
    ClassOrigin (session.visitedAfter fuel source visited) machine.heap made := by
  have continues := (past.recorded.visits past.history accepts visits).2
  exact ((continues.explained.mono fun _ _ event => event.1).classes place made found).origin

end Visited

/-- `super` with the name of a method, wherever a run evaluates it. -/
theorem Chronicle.inherited
    {steps : Nat}
    {keyword : Reference}
    {name : Token}
    {machine : Machine}
    (past : Chronicle session roots visited)
    (accepts : session.staticErrors source = [])
    (visits : Visits fuel session.echo (session.program source) (session.ready source)
      (.evaluate (steps + 1) (.inherited keyword name)) machine) :
    ∃ root ∈ session.root source :: roots,
      ∃ site nest owner declaration depth reference receiver parent,
      root.Under site nest ∧ site.part = .expression (.inherited keyword name) ∧
      Nest.InMethod owner declaration depth nest ∧ owner.superclass = some reference ∧
      machine.Serves (session.visitedAfter fuel source visited) declaration depth receiver ∧
      machine.Inherits (session.visitedAfter fuel source visited) owner reference (depth + 1)
        parent ∧
      Eval.readInherited keyword name machine =
        (match machine.heap.method? parent name.lexeme with
        | some found => Eval.bound found receiver
        | none => Eval.fail name.line (.undefinedProperty name.lexeme)) machine := by
  have event := (past.recorded.visits past.history accepts visits).1
  refine Part.Nested.inherited (sound_roots past.history accepts) (fun root member => ?_)
    event.2.2.2
  exact past.history.filed_keyword accepts visits (by simp [Expr.ids]) member

/-- A method of the superclass is looked up in some class, for some receiver, on every
machine on which it was read. -/
theorem Chronicle.readInherited
    {steps : Nat}
    {keyword : Reference}
    {name : Token}
    {machine : Machine}
    (past : Chronicle session roots visited)
    (isVisited : visited (.evaluate (steps + 1) (.inherited keyword name)) machine) :
    ∃ parent receiver, Eval.readInherited keyword name machine =
      (match machine.heap.method? parent name.lexeme with
      | some found => Eval.bound found receiver
      | none => Eval.fail name.line (.undefinedProperty name.lexeme)) machine := by
  induction past with
  | fresh clock output => exact isVisited.elim
  | echo _ echo inductionHypothesis => exact inductionHypothesis isVisited
  | accepted past accepts runs inductionHypothesis =>
    rcases isVisited with isOld | isNew
    · exact inductionHypothesis isOld
    · obtain ⟨-, -, -, -, -, -, -, -, receiver, parent, -, -, -, -, -, -, read⟩ :=
        past.inherited accepts isNew
      exact ⟨parent, receiver, read⟩
  | rejected _ rejects runs inductionHypothesis => exact inductionHypothesis isVisited

/-- Reading a method of the superclass never fails for want of a class or of a
receiver, on whatever machine it was or is read. -/
theorem Chronicle.not_raised
    {fault : RuntimeFault}
    (past : Chronicle session roots visited)
    (accepts : session.staticErrors source = [])
    (fuel : Nat)
    (isOne : fault = .inheritedOutsideClass ∨ fault = .inheritedOutsideMethod) :
    ¬ fault.Raised (nestedEvents (session.root source :: roots)
      (session.visitedAfter fuel source visited) session.machine.globals) := by
  intro raised
  obtain ⟨steps, keyword, name, machine, line, ⟨isVisited, -⟩, failed⟩ := raised isOne
  have found : ∃ parent receiver, Eval.readInherited keyword name machine =
      (match machine.heap.method? parent name.lexeme with
      | some found => Eval.bound found receiver
      | none => Eval.fail name.line (.undefinedProperty name.lexeme)) machine := by
    rcases isVisited with isOld | isNew
    · exact past.readInherited isOld
    · obtain ⟨-, -, -, -, -, -, -, -, receiver, parent, -, -, -, -, -, -, read⟩ :=
        past.inherited accepts isNew
      exact ⟨parent, receiver, read⟩
  obtain ⟨parent, receiver, read⟩ := found
  rw [read] at failed
  cases isMethod : machine.heap.method? parent name.lexeme with
  | some method =>
    rw [isMethod] at failed
    cases failed
  | none =>
    rw [isMethod] at failed
    cases failed
    rcases isOne with impossible | impossible <;> cases impossible

/-- `this` and `super` are bound statically and for good.  Whatever runs have led to a
session, and wherever a run of an accepted program gets: no task changes what the
receiver and the superclass are bound to in a scope that is there; `this` is the
instance for which the innermost method around it was fetched, in the scope that was
made then; and `super` with the name of a method is that method bound to the same
instance, looked up in the class that the superclass expression of the innermost
class around it meant when that class was declared.  Every class has its own methods
and then the lineage of its superclass, and reading a method of the superclass never
fails for want of a class or of a receiver. -/
theorem receivers_are_bound_for_good
    (past : Chronicle session roots visited)
    (accepts : session.staticErrors source = []) :
    (∀ task machine,
      Visits fuel session.echo (session.program source) (session.ready source) task machine ->
      (session.machine.heap.KeepsReceivers machine.heap ∧
        (∀ inner final, Begins task machine inner final ->
          machine.heap.KeepsReceivers final.heap) ∧
        (∀ steps value, task = .evaluate steps value ->
          machine.heap.KeepsReceivers ((Eval.evaluate steps value).left machine).heap) ∧
        ∀ steps step, task = .execute steps step ->
          machine.heap.KeepsReceivers ((Eval.execute steps step).left machine).heap) ∧
      (∀ place made, machine.heap.class? place = some made ->
        ClassOrigin (session.visitedAfter fuel source visited) machine.heap made) ∧
      (∀ steps keyword, task = .evaluate (steps + 1) (.self keyword) ->
        ∃ root ∈ session.root source :: roots, ∃ site nest owner declaration depth receiver,
          root.Under site nest ∧ site.part = .expression (.self keyword) ∧
          Nest.InMethod owner declaration depth nest ∧
          machine.Serves (session.visitedAfter fuel source visited) declaration depth receiver ∧
          Eval.evaluate (steps + 1) (.self keyword) machine = .ok (.object receiver) machine) ∧
      ∀ steps keyword name, task = .evaluate (steps + 1) (.inherited keyword name) ->
        ∃ root ∈ session.root source :: roots,
          ∃ site nest owner declaration depth reference receiver parent,
          root.Under site nest ∧ site.part = .expression (.inherited keyword name) ∧
          Nest.InMethod owner declaration depth nest ∧ owner.superclass = some reference ∧
          machine.Serves (session.visitedAfter fuel source visited) declaration depth receiver ∧
          machine.Inherits (session.visitedAfter fuel source visited) owner reference (depth + 1)
            parent ∧
          Eval.evaluate (steps + 1) (.inherited keyword name) machine =
            (match machine.heap.method? parent name.lexeme with
            | some found => Eval.bound found receiver
            | none => Eval.fail name.line (.undefinedProperty name.lexeme)) machine) ∧
    session.machine.heap.KeepsReceivers (session.interpreted fuel source).2.2.heap ∧
    ∀ line, (session.interpreted fuel source).2.1 ≠ some (.failure line .inheritedOutsideClass) ∧
      (session.interpreted fuel source).2.1 ≠ some (.failure line .inheritedOutsideMethod) := by
  obtain ⟨keeps, raised⟩ := past.interpreted accepts fuel
  refine ⟨fun task machine visits => ⟨past.keepsReceivers accepts visits, ?_, ?_, ?_⟩, keeps,
    fun line => ⟨?_, ?_⟩⟩
  · exact fun place made => past.classOrigin accepts visits
  · rintro steps keyword rfl
    have event := (past.recorded.visits past.history accepts visits).1
    rw [Eval.evaluate]
    refine Part.Nested.self (sound_roots past.history accepts) (fun root member => ?_) event.2.2.2
    exact past.history.filed_keyword accepts visits (by simp [Expr.ids]) member
  · rintro steps keyword name rfl
    rw [Eval.evaluate]
    exact past.inherited accepts visits
  · exact fun failed => past.not_raised accepts fuel (.inl rfl) (raised line _ failed)
  · exact fun failed => past.not_raised accepts fuel (.inr rfl) (raised line _ failed)

/-- A text that declares two classes, and keeps a function made in a method of the
second one.  The name of the superclass is then bound to something else. -/
def keepingText : String :=
  "class A \x7b name() \x7b return \"A\"; \x7d \x7d " ++
  "class B < A \x7b name() \x7b return \"B\"; \x7d " ++
  "get() \x7b fn f() \x7b return super.name() + this.name(); \x7d return f; \x7d \x7d " ++
  "var f = B().get(); A = null;"

/-- A text that calls the function that was kept. -/
def calledText : String :=
  "print f();"

/-- A function kept from a method is called in a later run, when the superclass has no
name any more. -/
theorem receivers_are_bound_for_good_calling :
    ∃ result after visited, untouched.run 30 keepingText = some (result, after) ∧
      Chronicle after [untouched.root keepingText] visited ∧
      after.staticErrors calledText = [] ∧
      (after.run 30 calledText).any (·.2.machine.output.written == "AB\n".toUTF8) = true ∧
      after.machine.heap.KeepsReceivers (after.interpreted 30 calledText).2.2.heap ∧
      ∀ line, (after.interpreted 30 calledText).2.1 ≠
          some (.failure line .inheritedOutsideClass) ∧
        (after.interpreted 30 calledText).2.1 ≠ some (.failure line .inheritedOutsideMethod) := by
  have accepts : untouched.staticErrors keepingText = [] := List.isEmpty_iff.mp (by decide +kernel)
  have called : ((untouched.run 30 keepingText).any fun one =>
      (one.2.staticErrors calledText).isEmpty &&
        (one.2.run 30 calledText).any (·.2.machine.output.written == "AB\n".toUTF8)) = true := by
    decide +kernel
  obtain ⟨⟨result, after⟩, runs, prints⟩ := (Option.any_eq_true _ _).mp called
  rw [Bool.and_eq_true, List.isEmpty_iff] at prints
  have past : Chronicle after [untouched.root keepingText] _ :=
    .accepted (.fresh _ _) accepts runs
  exact ⟨result, after, _, runs, past, prints.1, prints.2,
    (receivers_are_bound_for_good past prints.1).2⟩

end Session
end TreeWalk
