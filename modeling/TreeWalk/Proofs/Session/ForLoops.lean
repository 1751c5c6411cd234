import TreeWalk.Proofs.Resolution.ForLoops
import TreeWalk.Proofs.Session.KeptDistances

/-!
# Runs that get to a loop with a `for` header

Wherever a run gets to the statement that the parser makes of a loop with a `for` header,
it does what the loop by itself would do: resolved in the scopes around it, with no scope
of its own but that of the initializer, and executed round after round.
-/

namespace TreeWalk

/-- Machines that are the same but for the scopes that are new, and for what is
remembered of these.  The number of the other scopes is given. -/
structure Machine.Tallies (size : Nat) (machine other : Machine) : Prop where
  scopes : ∀ place : ScopeRef, place.index < size ->
    other.heap.scope place = machine.heap.scope place
  instances : other.heap.instances = machine.heap.instances
  display : ∀ value, other.heap.display value = machine.heap.display value
  scope : other.scope = machine.scope
  globals : other.globals = machine.globals
  callDepth : other.callDepth = machine.callDepth
  clock : other.clock = machine.clock
  output : other.output = machine.output

/-- Evaluations have ended equally: with the same result or the same interruption, on
machines that are the same but for the scopes that are new. -/
def EndEqually
    {α : Type}
    (size : Nat) :
    EStateM.Result Interruption Machine α -> EStateM.Result Interruption Machine α -> Prop
  | .ok result after, .ok otherResult otherAfter =>
    otherResult = result ∧ after.Tallies size otherAfter
  | .error interruption after, .error otherInterruption otherAfter =>
    otherInterruption = interruption ∧ after.Tallies size otherAfter
  | _, _ => False

/-- Go on with other statements, unless the first one has returned. -/
def Eval.andThen (first rest : Eval Flow) : Eval Flow := do
  match ← first with
  | .normal => rest
  | .returned value => return .returned value

namespace Heap

/-- Every scope of a heap, paired with itself. -/
def selfPairs (heap : Heap) : ScopePairs :=
  (List.range heap.scopes.size).map fun index => (⟨index⟩, ⟨index⟩)

/-- The pairs of a heap with itself are its scopes, each with itself. -/
theorem mem_selfPairs
    {heap : Heap}
    {pair : ScopeRef × ScopeRef} :
    pair ∈ heap.selfPairs ↔ pair.2 = pair.1 ∧ pair.1.index < heap.scopes.size := by
  obtain ⟨⟨place⟩, ⟨other⟩⟩ := pair
  simp only [selfPairs, List.mem_map, List.mem_range, Prod.mk.injEq, ScopeRef.mk.injEq]
  constructor
  · rintro ⟨index, made, rfl, rfl⟩
    exact ⟨rfl, made⟩
  · rintro ⟨rfl, made⟩
    exact ⟨_, made, rfl, rfl⟩

end Heap

section Alike

variable {setting : Setting} {machine other : Machine}

/-- Evaluations that go together, from the same scopes, end equally. -/
theorem GoesOn.tallies
    {later : ScopePairs}
    {after otherAfter : Machine}
    (goesOn : GoesOn setting.lockstep machine.heap.selfPairs machine other later after otherAfter)
    (sameHeap : other.heap = machine.heap)
    (sameScope : other.scope = machine.scope) :
    after.Tallies machine.heap.scopes.size otherAfter where
  scopes place made := by
    have paired : (place, place) ∈ later := goesOn.extended (Heap.mem_selfPairs.mpr ⟨rfl, made⟩)
    have enclosing := goesOn.grows.enclosing place made
    have otherEnclosing := goesOn.otherGrows.enclosing place (by rwa [sameHeap])
    rw [sameHeap] at otherEnclosing
    exact congrArg₂ Scope.mk (goesOn.same.heap.scopes.bindings _ paired)
      (otherEnclosing.trans enclosing.symm)
  instances := goesOn.same.heap.instances
  display := goesOn.same.heap.display
  scope := goesOn.otherScope.trans (sameScope.trans goesOn.scope.symm)
  globals := goesOn.same.globals.2.trans goesOn.same.globals.1.symm
  callDepth := goesOn.same.callDepth
  clock := goesOn.same.clock
  output := goesOn.same.output

/-- Evaluations that run together from one heap end equally on its scopes. -/
theorem Together.endEqually
    {α : Type}
    {evaluation otherEvaluation : Eval α}
    (together : Together setting.lockstep machine.heap.selfPairs evaluation otherEvaluation machine
      other equalResults)
    (sameHeap : other.heap = machine.heap)
    (sameScope : other.scope = machine.scope) :
    EndEqually machine.heap.scopes.size (evaluation machine) (otherEvaluation other) := by
  unfold Together at together
  cases outcome : evaluation machine <;> cases otherOutcome : otherEvaluation other <;>
    rw [outcome, otherOutcome] at together
  case ok.ok =>
    obtain ⟨later, goesOn, equal⟩ := together
    exact ⟨equal, goesOn.tallies sameHeap sameScope⟩
  case error.error =>
    obtain ⟨interruptions, later, goesOn⟩ := together
    exact ⟨interruptions.2 fun _ _ same => same, goesOn.tallies sameHeap sameScope⟩
  all_goals exact together.elim

end Alike

section Retabled

variable {roots : List Site} {machine : Machine} {after : Distances}

/-- A chain of scopes is aligned with itself. -/
theorem Heap.Agrees.aligned
    {setting : Setting}
    {heap : Heap}
    {place : ScopeRef}
    {scopes : List (Bindings Binding)}
    (agrees : heap.Agrees setting.globals place scopes) :
    Heap.Aligned setting heap.selfPairs heap heap place place .none := by
  induction agrees with
  | outermost => exact .outermost
  | inside made encloses _ _ _ inductionHypothesis =>
    exact .inside (Heap.mem_selfPairs.mpr ⟨rfl, made⟩) made made encloses encloses
      inductionHypothesis

/-- A function belongs to itself, if its references have the same distances. -/
theorem Closure.Placed.paired_self
    {closure : Closure}
    {receivers : List (Bindings Binding)}
    {coming : Gap -> Gap}
    (placed : closure.Placed roots machine receivers)
    (same : ∀ root ∈ roots, ∀ id ∈ root.part.ids, after[id]? = machine.distances[id]?)
    (isNone : coming .none = .none) :
    closure.Paired (Setting.pairing ⟨machine.distances, after, machine.globals⟩)
      machine.heap.selfPairs machine.heap machine.heap coming closure := by
  obtain ⟨site, outer, ⟨root, member, sound, -, within, -⟩, part, -, -, agrees⟩ := placed
  have declares : Gap.none ≠ .beyond 0 := by decide
  refine ⟨.none, declares, Heap.Agrees.aligned agrees,
    ⟨fun id => id, (FunctionDecl.renumber_id _).symm, ?_⟩, rfl⟩
  rw [isNone]
  refine FunctionDecl.fits_of_same closure.declaration fun id inside => ?_
  refine same root member id (within.ids_subset sound ?_)
  rw [part]
  exact inside

/-- A machine is paired with itself under other distances, if the programs that it is
faithful to have the same ones. -/
theorem Machine.Faithful.paired_retable
    (faithful : machine.Faithful roots)
    (same : ∀ root ∈ roots, ∀ id ∈ root.part.ids, after[id]? = machine.distances[id]?) :
    machine.Paired (Setting.lockstep ⟨machine.distances, after, machine.globals⟩)
      machine.heap.selfPairs { machine with distances := after } where
  heap :=
    { scopes :=
        { made := fun pair member => by
            obtain ⟨isSame, made⟩ := Heap.mem_selfPairs.mp member
            rw [isSame]
            exact ⟨made, made⟩
          unique := fun pair member second secondMember => by
            rw [(Heap.mem_selfPairs.mp member).1, (Heap.mem_selfPairs.mp secondMember).1]
          bindings := fun pair member => by
            rw [(Heap.mem_selfPairs.mp member).1]
          globals := Heap.mem_selfPairs.mpr ⟨rfl, faithful.globalsMade⟩
          outermost := faithful.outermost
          otherOutermost := faithful.outermost }
      natives := rfl
      functionsSize := rfl
      functions := fun place => by
        dsimp only
        cases found : machine.heap.function? place with
        | none => exact .none
        | some closure =>
          exact .some ((faithful.functions place closure found).paired_self same rfl)
      classesSize := rfl
      classes := fun place => by
        dsimp only
        cases found : machine.heap.class? place with
        | none => exact .none
        | some ofClass =>
          refine .some ⟨rfl, List.forall₂_same.mpr fun table member name => ?_⟩
          cases isMethod : table.get? name with
          | none => exact .none
          | some method =>
            exact .some ((faithful.methods place ofClass found table member name method
              isMethod).paired_self same rfl)
      instances := rfl }
  globals := ⟨rfl, rfl⟩
  distances := ⟨rfl, rfl⟩
  callDepth := rfl
  clock := rfl
  output := rfl

/-- A machine is abreast of itself under another table that agrees on the text. -/
theorem Located.abreast
    {site : Site}
    (located : Located roots machine site)
    (same : ∀ root ∈ roots, ∀ id ∈ root.part.ids, after[id]? = machine.distances[id]?) :
    Abreast (Setting.lockstep ⟨machine.distances, after, machine.globals⟩) machine.heap.selfPairs
      Gap.none machine { machine with distances := after } :=
  ⟨located.faithful.paired_retable same, Heap.Agrees.aligned located.agrees⟩

end Retabled

namespace Session

/-- A loop with numbers that no reference has when a source text has been parsed. -/
def renumberedLoop (session : Session) (source : String) (loop : ForLoop) : ForLoop :=
  loop.renumber (· + session.nextIdAfter source)

/-- What name resolution finds in a loop by itself, at the place of a site. -/
def loopResolution
    (session : Session)
    (source : String)
    (site : Site)
    (loop : ForLoop) : Resolution :=
  (session.renumberedLoop source loop).resolve site.around site.walk.anew

/-- The machine on which a loop by itself is executed. -/
def loopMachine
    (session : Session)
    (source : String)
    (site : Site)
    (loop : ForLoop)
    (machine : Machine) : Machine :=
  machine.noteDistances (session.loopResolution source site loop).distances

section Loops

variable
  {session : Session}
  {roots : List Site}
  {source : String}
  {fuel : Nat}
  {task : Task}
  {machine : Machine}
  {site : Site}
  {loop : ForLoop}

/-- All references have numbers that were given out. -/
theorem Consistent.numbered_root
    (consistent : session.Consistent roots)
    (accepts : session.staticErrors source = []) :
    ∀ root ∈ session.root source :: roots, ∀ id ∈ root.part.ids,
      id < session.nextIdAfter source := by
  intro root member id inside
  rcases List.mem_cons.mp member with rfl | isOld
  · exact ((spans_of_accepted accepts).bounds id inside).2
  · exact Nat.lt_of_lt_of_le (consistent.numbered root isOld id inside)
      (le_nextIdAfter session source)

/-- Nothing is filed under a number that was not given out, all the while that a program
is interpreted. -/
theorem Visits.unfiled
    (consistent : session.Consistent roots)
    (accepts : session.staticErrors source = [])
    (visits : Visits fuel session.echo (session.program source) (session.ready source)
      task machine)
    {id : Nat}
    (unused : session.nextIdAfter source ≤ id) :
    machine.distances[id]? = none := by
  have outside : id ∉ (session.root source).part.ids := fun inside =>
    Nat.not_lt.mpr unused ((spans_of_accepted accepts).bounds id inside).2
  rw [visits.distances, getElem?_ready consistent accepts,
    if_neg outside]
  exact consistent.unused id (Nat.le_trans (le_nextIdAfter session source) unused)

/-- Under the numbers that were given out, nothing is filed for a loop by itself. -/
theorem getElem?_loopMachine_of_lt
    {id : Nat}
    (used : id < session.nextIdAfter source) :
    (session.loopMachine source site loop machine).distances[id]? = machine.distances[id]? := by
  have unfiled : (session.loopResolution source site loop).distances[id]? = none := by
    refine (ForLoop.renumbered_resolve (fun _ _ => Nat.add_right_cancel) site.around loop
      (Resolution.renumbered_anew _ site.walk)).distances.unfiled id fun old isOld => ?_
    rw [← isOld] at used
    exact Nat.not_lt.mpr (Nat.le_add_left _ _) used
  rw [loopMachine, Machine.getElem?_noteDistances, unfiled, Option.none_or]

/-- Under the other numbers, only a loop by itself has something filed. -/
theorem Visits.getElem?_loopMachine
    (consistent : session.Consistent roots)
    (accepts : session.staticErrors source = [])
    (visits : Visits fuel session.echo (session.program source) (session.ready source)
      task machine)
    (id : Nat) :
    (session.loopMachine source site loop machine).distances[id + session.nextIdAfter source]? =
      (session.loopResolution source site loop).distances[id + session.nextIdAfter source]? := by
  rw [loopMachine, Machine.getElem?_noteDistances,
    visits.unfiled consistent accepts (Nat.le_add_left _ _), Option.or_none]

/-- How the runs of the statement that the parser makes of a loop, and of the loop by
itself, have to do with each other. -/
def loopSetting
    (session : Session)
    (source : String)
    (site : Site)
    (loop : ForLoop)
    (machine : Machine) : Setting :=
  ⟨machine.distances, (session.loopMachine source site loop machine).distances, machine.globals⟩

/-- The loop by itself is resolved without errors, and its names mean the same. -/
theorem Visits.loopFits
    {around : Surroundings}
    {walk : Resolution}
    (consistent : session.Consistent roots)
    (accepts : session.staticErrors source = [])
    (visits : Visits fuel session.echo (session.program source) (session.ready source)
      task machine)
    (nothing : loop.body.declaredName? = none)
    (located : Located (session.root source :: roots) machine
      ⟨around, .statement loop.desugared, walk⟩) :
    (session.loopResolution source ⟨around, .statement loop.desugared, walk⟩ loop).errors = #[] ∧
      loop.Fits
        (session.loopSetting source ⟨around, .statement loop.desugared, walk⟩ loop machine)
        (· + session.nextIdAfter source) :=
  Resolution.fits_of_resolve (fun _ _ => Nat.add_right_cancel) nothing located.charted
    fun id _ => visits.getElem?_loopMachine consistent accepts id

/-- The machine on which the loop by itself is executed has the scopes of the other
one. -/
theorem loopAbreast
    (loop : ForLoop)
    (consistent : session.Consistent roots)
    (accepts : session.staticErrors source = [])
    (located : Located (session.root source :: roots) machine site) :
    Abreast (session.loopSetting source site loop machine).lockstep machine.heap.selfPairs Gap.none
      machine (session.loopMachine source site loop machine) :=
  located.abreast fun root member id inside =>
    getElem?_loopMachine_of_lt (consistent.numbered_root accepts root member id inside)

/-- Loops with a `for` header mean what they say.  Whatever runs have led to a session,
wherever a run of an accepted program gets to a statement that begins with `for`, in this
program or in a function of an earlier one: the statement is made of a loop that the
grammar has; the loop by itself is resolved without errors at the same place; the names of
its condition and of its increment are looked up in the scopes of the loop, whatever the
body declares, so that those of the condition have the same distances and those of the
increment lie one scope further in; and executing the statement ends as executing the loop
by itself does, with the same result or interruption, the same output, the same instances
and the same scopes, as far as these were there before.  So it still does when any other
statements come next, which may call the functions that the loop has made. -/
theorem desugared_loops_keep_their_meaning
    {left room first next : Nat}
    {dangling : Bool}
    {word : Token}
    {tokens : List Token}
    {statement : Stmt}
    (past : History session roots)
    (accepts : session.staticErrors source = [])
    (isWord : word.kind = .keyword .forWord)
    (derived : Grammar.StatementWithin (room + 1) dangling first (word :: tokens) statement next)
    (visits : Visits fuel session.echo (session.program source) (session.ready source)
      (.execute left statement) machine) :
    ∃ loop site, Grammar.ForStatementWithin room dangling first (word :: tokens) loop next ∧
      statement = loop.desugared ∧ site.part = .statement statement ∧
      Located (session.root source :: roots) machine site ∧
      (session.loopResolution source site loop).errors = #[] ∧
      (∀ id ∈ Expr.optionIds loop.condition, machine.distances[id]? =
        (session.loopResolution source site loop).distances[id + session.nextIdAfter source]?) ∧
      (∀ id ∈ Expr.optionIds loop.increment, machine.distances[id]? =
        (session.loopResolution source site loop).distances[
          id + session.nextIdAfter source]?.map (· + 1)) ∧
      EndEqually machine.heap.scopes.size (Eval.execute left statement machine)
        ((session.renumberedLoop source loop).execute left
          (session.loopMachine source site loop machine)) ∧
      ∀ rest, (∀ id ∈ Stmt.listIds rest, id < session.nextIdAfter source) ->
        EndEqually machine.heap.scopes.size
          ((Eval.execute left statement).andThen (Eval.sequence (Eval.execute left) rest) machine)
          (((session.renumberedLoop source loop).execute left).andThen
            (Eval.sequence (Eval.execute left) rest)
            (session.loopMachine source site loop machine)) := by
  have consistent := past.consistent
  obtain ⟨loop, isLoop, rfl⟩ := (Grammar.statementWithin_forWord_iff isWord).mp derived
  obtain ⟨⟨around, _, walk⟩, ⟨⟩, located⟩ := visits.ready rfl (located_root consistent accepts)
  obtain ⟨noErrors, fits⟩ := visits.loopFits consistent accepts isLoop.body_declaresNothing located
  have abreast := loopAbreast loop consistent accepts located
  have together := together_forLoop left fits abreast
  refine ⟨loop, _, isLoop, rfl, rfl, located, noErrors, fun id member => ?_, fun id member => ?_,
    together.endEqually rfl rfl, fun rest below => ?_⟩
  · rw [← visits.getElem?_loopMachine consistent accepts]
    exact fits.condition_distances member
  · rw [← visits.getElem?_loopMachine consistent accepts]
    exact fits.increment_distances member
  · -- The statements that come next have the same numbers in both runs.
    refine Together.endEqually (together.bind ?_) rfl rfl
    rintro _ flow later after otherAfter goesOn rfl
    cases flow with
    | normal =>
      have restFits : Stmt.ListFits
          (session.loopSetting source ⟨around, .statement loop.desugared, walk⟩ loop machine)
          (fun id => id) .none rest :=
        Stmt.listFits_of_same rest fun id member => getElem?_loopMachine_of_lt (below id member)
      have sequenced :=
        together_sequence (runsTogether _ left).2.1 restFits.paired (abreast.goOn goesOn)
      rw [Stmt.listRenumber_id] at sequenced
      exact sequenced
    | returned value => exact together_pure goesOn.same rfl

end Loops

/-- A text with a loop, the body of which makes a function and keeps it in the variable
of the loop.  The body then declares another variable of the same name, and the increment
calls the function. -/
def growingText : String :=
  "for (var f = \"\"; f != \"bb\"; f = f()) " ++
  "\x7b var v = f + \"b\"; fn g() \x7b return v; \x7d f = g; var f = null; print v; \x7d"

/-- A program that begins with `for`, and consists of a single statement. -/
theorem derived_of_single
    {first next : Nat}
    {tokens : List Token}
    {program : List Stmt}
    (derived : Grammar.Program first tokens program next)
    (single : program.length = 1)
    (begins : tokens.head?.any (·.kind == .keyword .forWord) = true) :
    ∃ dangling word rest statement, word.kind = .keyword .forWord ∧ program = [statement] ∧
      Grammar.StatementWithin Parse.maxNesting dangling first (word :: rest) statement next := by
  cases derived with
  | none => cases single
  | @more _ _ _ _ tokens _ statement before one =>
    cases before with
    | more => simp at single
    | none =>
      rw [List.nil_append] at begins
      cases one with
      | classDecl isWord => simp [isWord] at begins
      | function isWord => simp [isWord] at begins
      | variableDecl isWord => simp [isWord] at begins
      | statement only =>
        cases tokens with
        | nil => cases begins
        | cons word rest =>
          have isWord : word.kind = .keyword .forWord := by simpa using begins
          exact ⟨_, word, rest, statement, isWord, rfl, only⟩

theorem topLevelTask_desugared (fuel : Nat) (loop : ForLoop) :
    topLevelTask fuel loop.desugared = .execute fuel loop.desugared := by
  rw [ForLoop.desugared_eq]
  cases loop.initializer <;> rfl

/-- A loop whose increment calls a function that its body has left behind. -/
theorem desugared_loops_keep_their_meaning_growing :
    untouched.staticErrors growingText = [] ∧
      (untouched.run 30 growingText).any (·.2.machine.output.written == "b\nbb\n".toUTF8) = true ∧
      ∃ loop site, untouched.program growingText = [loop.desugared] ∧
        site.part = .statement loop.desugared ∧
        (untouched.loopResolution growingText site loop).errors = #[] ∧
        EndEqually (untouched.ready growingText).heap.scopes.size
          (Eval.execute 30 loop.desugared (untouched.ready growingText))
          ((untouched.renumberedLoop growingText loop).execute 30
            (untouched.loopMachine growingText site loop (untouched.ready growingText))) := by
  have accepts : untouched.staticErrors growingText = [] := List.isEmpty_iff.mp (by decide +kernel)
  have prints : (untouched.run 30 growingText).any
      (·.2.machine.output.written == "b\nbb\n".toUTF8) = true := by
    decide +kernel
  have single : (untouched.program growingText).length = 1 := by decide +kernel
  have begins : (Scan.ofSource growingText).tokens.head?.any
      (·.kind == .keyword .forWord) = true := by
    decide +kernel
  obtain ⟨dangling, word, tokens, statement, isWord, isProgram, derived⟩ :=
    derived_of_single (derived_of_accepted accepts) single begins
  have visits : Visits 30 untouched.echo (untouched.program growingText)
      (untouched.ready growingText) (.execute 30 statement) (untouched.ready growingText) := by
    obtain ⟨loop, -, rfl⟩ := (Grammar.statementWithin_forWord_iff isWord).mp derived
    rw [isProgram, ← topLevelTask_desugared]
    exact .first .start
  obtain ⟨loop, site, -, rfl, isSite, -, noErrors, -, -, alike, -⟩ :=
    desugared_loops_keep_their_meaning (.fresh _ _) accepts isWord derived visits
  exact ⟨accepts, prints, loop, site, isProgram, isSite, noErrors, alike⟩

end Session
end TreeWalk
