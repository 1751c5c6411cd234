import TreeWalk.Proofs.Grammar.Respelling
import TreeWalk.Proofs.Resolution.Respelling
import TreeWalk.Proofs.Scan.Outlook
import TreeWalk.Proofs.Session.Likeness
import TreeWalk.Proofs.Session.Parallel

/-!
# Programs in two parts

A program may be run in one piece, or in two runs of a session, one after the
other.  In one piece, the second part stands on later lines, and the distances of
both parts are taken up at the beginning and dropped at the end.
-/

namespace TreeWalk

/-- The spelling that moves lines down, and changes nothing else. -/
def Spelling.moving (lines : Nat) (distances : Distances) : Spelling where
  old := ""
  new := ""
  distances := distances
  line place := place + lines
  number id := id

/-- The likeness of two runs, one of which has some parts on later lines.  The functions
of some programs are on the same lines in both of them, and those of others on later
ones. -/
def Likeness.moving
    (lines : Nat)
    (still below : List Site)
    (before after : Distances) : Likeness where
  old := ""
  new := ""
  before := before
  after := after
  number id := id
  lines line := (∀ place, line place = place) ∨ ∀ place, line place = place + lines
  moves declaration line :=
    (DeclaredIn still declaration ∧ ∀ place, line place = place) ∨
      (DeclaredIn below declaration ∧ ∀ place, line place = place + lines)
  keepsSelf := NamePair.exchange_nothing selfName
  keepsSuperclass := NamePair.exchange_nothing superclassName

/-- Nothing but the lines of some parts tells the runs apart.  A function whose lines are
the same is declared by one of the first programs, and a function whose lines are moved
by one of the second. -/
structure Likeness.MovesOnly
    (lines : Nat)
    (still below : List Site)
    (likeness : Likeness) : Prop where
  samePair : likeness.old = likeness.new
  sameNumber : likeness.number = fun id => id
  sameLines : ∀ line, likeness.lines line ->
    (∀ place, line place = place) ∨ ∀ place, line place = place + lines
  sameFunctions : ∀ declaration line, likeness.moves declaration line ->
    (DeclaredIn still declaration ∧ ∀ place, line place = place) ∨
      (DeclaredIn below declaration ∧ ∀ place, line place = place + lines)

/-- Alike machines stay so under tables that agree on the heap. -/
theorem Machine.Alike.retableMoving
    {lines : Nat}
    {still below : List Site}
    {before after laterBefore laterAfter : Distances}
    {marks : List Bool}
    {machine other : Machine}
    (alike : machine.Alike (.moving lines still below before after) marks other)
    (same : machine.heap.Numbers fun id =>
      laterBefore[id]? = before[id]? ∧ laterAfter[id]? = after[id]?) :
    Machine.Alike (.moving lines still below laterBefore laterAfter) marks
      { machine with distances := laterBefore } { other with distances := laterAfter } :=
  alike.retable rfl rfl (fun _ isLine => isLine) (fun _ _ isLine => isLine) same

/-- Move a token down by some lines. -/
def Token.moveDown (lines : Nat) (token : Token) : Token :=
  ⟨token.kind, token.lexeme, token.line + lines⟩

/-- Tokens respelled by moving lines are moved down, one by one. -/
theorem eq_map_of_respelled
    {lines : Nat}
    {distances : Distances}
    {tokens respelled : List Token}
    (areRespelled : List.Forall₂ (Token.Respelled (.moving lines distances)) tokens respelled) :
    respelled = tokens.map (·.moveDown lines) := by
  induction areRespelled with
  | nil => rfl
  | cons here _ inductionHypothesis =>
    obtain ⟨chosen, rfl, -⟩ := here
    rw [List.map_cons, inductionHypothesis, Token.respell,
      NamePair.name_of_exchange_eq (NamePair.exchange_of_same rfl _)]
    rfl

/-- Two lists of items in a row are one list. -/
theorem Grammar.repeated_append
    {α : Type}
    {item : Phrase α}
    {first middle next : Nat}
    {tokens more : List Token}
    {items others : List α}
    (before : Repeated item first tokens items middle)
    (after : Repeated item middle more others next) :
    Repeated item first (tokens ++ more) (items ++ others) next := by
  induction after with
  | none =>
    rw [List.append_nil, List.append_nil]
    exact before
  | more _ one inductionHypothesis =>
    rw [← List.append_assoc, ← List.append_assoc]
    exact .more (inductionHypothesis before) one

/-- An error without its line. -/
def Error.withoutLine : Error -> Error
  | .runtime _ text => .runtime 0 text
  | other => other

/-- The error of an interruption, without its line. -/
theorem Interruption.error?_withoutLine (interruption : Interruption) :
    interruption.withoutLine.error? = interruption.error?.map (·.withoutLine) := by
  cases interruption <;> rfl

theorem Error.isRuntime_withoutLine (error : Error) :
    error.withoutLine.isRuntime = error.isRuntime := by
  cases error <;> rfl

namespace RunResult

/-- Runs that are interrupted for the same reason have the same errors, up to their
lines. -/
theorem ofEnd_alike
    {likeness : Likeness}
    {interruption other : Option Interruption}
    {executed : Nat}
    {result : RunResult}
    (related : Option.Rel (Interruption.Alike likeness) interruption other)
    (ended : ofEnd executed interruption = some result)
    (otherExecuted : Nat) :
    ∃ otherResult, ofEnd otherExecuted other = some otherResult ∧
      otherResult.executed = otherExecuted ∧ otherResult.rejected = false ∧
      result.executed = executed ∧
      otherResult.errors.map (·.withoutLine) = result.errors.map (·.withoutLine) := by
  cases related with
  | none =>
    cases ended
    exact ⟨_, rfl, rfl, rfl, rfl, rfl⟩
  | @some interruption other alike =>
    obtain ⟨error, isError, rfl⟩ := Option.map_eq_some_iff.mp ended
    have sameError := congrArg Interruption.error? alike.1
    rw [Interruption.error?_withoutLine, Interruption.error?_withoutLine, isError, Option.map_some,
      Option.map_eq_some_iff] at sameError
    obtain ⟨otherError, isOther, same⟩ := sameError
    refine ⟨⟨otherExecuted, [otherError], false⟩, ?_, rfl, rfl, rfl, ?_⟩
    · rw [ofEnd, isOther]
      rfl
    · rw [List.map_singleton, List.map_singleton, same]

/-- Results with the same messages fail alike. -/
theorem failed_eq
    {result other : RunResult}
    (rejected : other.rejected = result.rejected)
    (errors : other.errors.map (·.withoutLine) = result.errors.map (·.withoutLine)) :
    other.failed = result.failed := by
  have isRuntime : ∀ found : List Error,
      (found.map (·.withoutLine)).any (·.isRuntime) = found.any (·.isRuntime) := by
    intro found
    rw [List.any_map]
    congr 1
    funext error
    exact Error.isRuntime_withoutLine error
  rw [failed, failed, rejected, ← isRuntime, errors, isRuntime]

end RunResult

namespace Session

/-! ## Interpreting in parts -/

/-- Interpreting goes on counting from where it begins. -/
theorem interpret_add
    (fuel : Nat)
    (echo : Bool)
    (program : List Stmt)
    (executed : Nat)
    (machine : Machine) :
    interpret fuel echo program executed machine =
      (executed + (interpret fuel echo program 0 machine).1,
        (interpret fuel echo program 0 machine).2) := by
  induction program generalizing executed machine with
  | nil => rfl
  | cons first rest inductionHypothesis =>
    rw [interpret, interpret]
    cases executeTopLevel fuel echo first machine with
    | error interruption after => rfl
    | ok result after =>
      dsimp only
      rw [inductionHypothesis (executed + 1), inductionHypothesis (0 + 1)]
      dsimp only
      congr 1
      omega

/-- Behind statements that were not interrupted, interpreting goes on with the
others. -/
theorem interpret_append
    {fuel : Nat}
    {echo : Bool}
    {program : List Stmt}
    {executed : Nat}
    {machine : Machine}
    (uninterrupted : (interpret fuel echo program executed machine).2.1 = none)
    (more : List Stmt) :
    interpret fuel echo (program ++ more) executed machine =
      interpret fuel echo more (interpret fuel echo program executed machine).1
        (interpret fuel echo program executed machine).2.2 := by
  induction program generalizing executed machine with
  | nil => rfl
  | cons first rest inductionHypothesis =>
    rw [interpret] at uninterrupted ⊢
    rw [List.cons_append, interpret]
    cases outcome : executeTopLevel fuel echo first machine with
    | error interruption after =>
      rw [outcome] at uninterrupted
      cases uninterrupted
    | ok result after =>
      rw [outcome] at uninterrupted
      exact inductionHypothesis uninterrupted

/-- A source text has been run to its end, without any error. -/
structure Completes
    (session : Session)
    (fuel : Nat)
    (source : String)
    (after : Session) : Prop where
  accepts : session.staticErrors source = []
  uninterrupted : (session.interpreted fuel source).2.1 = none
  isAfter : after = session.finished fuel source

/-- A source that completes runs without errors. -/
theorem Completes.runs
    {session after : Session}
    {fuel : Nat}
    {source : String}
    (completes : session.Completes fuel source after) :
    session.run fuel source =
      some (⟨(session.interpreted fuel source).1, [], false⟩, after) := by
  rw [run_eq_finished completes.accepts, completes.uninterrupted, completes.isAfter]
  rfl

/-- A source that completes uses up its ids. -/
theorem Completes.nextId_eq
    {session after : Session}
    {fuel : Nat}
    {source : String}
    (completes : session.Completes fuel source after) :
    after.nextId = session.nextIdAfter source := by
  rw [completes.isAfter]
  rfl

/-- A source that ran without errors completes. -/
theorem completes_of_run
    {session after : Session}
    {fuel : Nat}
    {source : String}
    {result : RunResult}
    (runs : session.run fuel source = some (result, after))
    (clean : result.errors = []) :
    session.Completes fuel source after ∧
      result.executed = (session.interpreted fuel source).1 := by
  by_cases accepts : session.staticErrors source = []
  · rw [run_eq_finished accepts, Option.map_eq_some_iff] at runs
    obtain ⟨_, ended, same⟩ := runs
    cases same
    cases interruption : (session.interpreted fuel source).2.1 with
    | none =>
      rw [interruption] at ended
      cases ended
      exact ⟨⟨accepts, interruption, rfl⟩, rfl⟩
    | some interruption' =>
      rw [interruption] at ended
      obtain ⟨error, -, rfl⟩ := Option.map_eq_some_iff.mp ended
      cases clean
  · rw [run_of_rejected accepts] at runs
    cases runs
    exact absurd clean accepts

/-- A source that was not rejected has no static errors. -/
theorem accepts_of_run
    {session after : Session}
    {fuel : Nat}
    {source : String}
    {result : RunResult}
    (runs : session.run fuel source = some (result, after))
    (accepted : result.rejected = false) :
    session.staticErrors source = [] := by
  by_contra rejects
  rw [run_of_rejected rejects] at runs
  cases runs
  cases accepted

/-- Two texts, one after the other, on lines of their own. -/
def joined (first second : String) : String :=
  first ++ "\n" ++ second

/-- The likeness of the run of both texts and of the runs of the one and the other.  The
functions of the second text are on later lines, those of the first one and of the
programs before it are not. -/
def joining
    (session middle : Session)
    (roots : List Site)
    (first second : String) : Distances -> Distances -> Likeness :=
  .moving (Scan.linesBefore first) (session.root first :: roots) [middle.root second]

section Joined

variable
  {session middle : Session}
  {roots : List Site}
  {fuel : Nat}
  {first second : String}

/-- The second part of a program, on the lines behind the first one. -/
def movedProgram (middle : Session) (first second : String) : List Stmt :=
  Stmt.listRespell (.moving (Scan.linesBefore first) (middle.resolution second).distances) .nowhere
    [] (middle.program second)

/-- The text of two parts is parsed to their programs, one after the other. -/
theorem parseProgram_joined
    (completes : session.Completes fuel first middle)
    (acceptsNext : middle.staticErrors second = []) :
    parseProgram (joined first second) session.nextId =
      ⟨session.program first ++ middle.movedProgram first second,
        middle.nextIdAfter second, []⟩ := by
  have clean := scan_of_accepted completes.accepts
  have respells : Grammar.Respells
      (.moving (Scan.linesBefore first) (middle.resolution second).distances)
      (Stmt.listRespell _ .nowhere []) Grammar.Program :=
    Grammar.program_respells (fun _ => rfl) .nowhere []
  obtain ⟨tokens, respelled, derived⟩ := respells (derived_of_accepted acceptsNext)
  obtain rfl := eq_map_of_respelled respelled
  have derivedBefore := derived_of_accepted completes.accepts
  rw [← completes.nextId_eq] at derivedBefore
  refine parseProgram_of_derived
    (Scan.errors_append_lineFeed clean (scan_of_accepted acceptsNext)) ?_
  rw [joined, Scan.tokens_append_lineFeed second clean]
  exact Grammar.repeated_append derivedBefore derived

/-- What a program has bound globally, name resolution has found to be global. -/
theorem globalNames_subset
    (consistent : session.Consistent roots)
    (completes : session.Completes fuel first middle) :
    middle.machine.globalNames ⊆ (session.resolution first).globals := by
  obtain ⟨accepts, -, rfl⟩ := completes
  have advances := advances_interpret fuel session.echo 0 rfl (located_root consistent accepts)
  have walked : Resolution.Adds .none _ { globals := session.machine.globalNames }
      (session.resolution first) := (session.root first).adds_outcome
  intro name member
  have isGlobal : (session.finished fuel first).machine.globals = session.machine.globals :=
    advances.globals
  rw [Machine.globalNames, Bindings.mem_names, isGlobal] at member
  rcases advances.globalNames name member with known | declared
  · exact walked.globals (Bindings.mem_names.mpr known)
  · exact Resolution.mem_globals_statements {} rfl (root_sound accepts).wellFormed declared

/-- The second part is resolved behind the first one as it is on its own. -/
theorem resolution_joined
    (consistent : session.Consistent roots)
    (completes : session.Completes fuel first middle)
    (acceptsNext : middle.staticErrors second = []) :
    Resolution.Alike ⟨"", ""⟩ (session.resolution first).distances
      (session.resolution first).topLevel [] (middle.resolution second)
      (session.resolution (joined first second)) := by
  have spares : ∀ name, NamePair.Spares ⟨"", ""⟩ name :=
    fun name => .inr (NamePair.exchange_of_same rfl name)
  have sound := root_sound completes.accepts
  have outside : (session.resolution first).scopes = [] := by
    rw [resolution, resolve, Resolution.scopes_statements {} _ _ sound.wellFormed]
    exact Resolution.bindAll_nil _
  have noErrors : (session.resolution first).errors = #[] := Array.size_eq_zero_iff.mp sound.clean
  have start : Resolution.Alike ⟨"", ""⟩ (session.resolution first).distances
      (session.resolution first).topLevel [] { globals := middle.machine.globalNames }
      (session.resolution first) := by
    refine ⟨?_, globalNames_subset consistent completes, fun id => ?_, ?_, noErrors⟩
    · rw [outside]
      exact .outermost
    · rw [Std.TreeMap.getElem?_emptyc, Option.none_or]
    · exact Array.append_empty.symm
  have fits : (middle.root second).Fits
      (.moving (Scan.linesBefore first) (middle.resolution second).distances) := by
    refine ⟨root_sound acceptsNext, fun _ => rfl, fun _ _ => rfl, ?_,
      NamePair.exchange_of_same rfl _, NamePair.exchange_of_same rfl _⟩
    exact Grammar.program_yields (derived_of_accepted acceptsNext) fun token member =>
      (Scan.tokens_wellSpelled second token member).imp fun _ => spares _
  have isProgram : session.program (joined first second) =
      session.program first ++ middle.movedProgram first second :=
    congrArg ParsedSource.result (parseProgram_joined completes acceptsNext)
  have isResolved : session.resolution (joined first second) =
      Resolution.statements {} (middle.movedProgram first second) (session.resolution first) := by
    rw [resolution, isProgram]
    exact Resolution.statements_append {} _ _ _
  rw [isResolved]
  exact Resolution.alike_statements {} _ .nowhere start fits fun chosen => Bool.noConfusion chosen

/-- Two sources, each accepted in its turn, are accepted joined. -/
theorem accepts_joined
    (consistent : session.Consistent roots)
    (completes : session.Completes fuel first middle)
    (acceptsNext : middle.staticErrors second = []) :
    session.staticErrors (joined first second) = [] := by
  have resolved := resolution_joined consistent completes acceptsNext
  rw [staticErrors, parseProgram_joined completes acceptsNext, resolved.clean]
  rfl

section Tables

variable
  (consistent : session.Consistent roots)
  (completes : session.Completes fuel first middle)
  (acceptsNext : middle.staticErrors second = [])

include consistent completes acceptsNext

/-- The distances of all references, whichever part they are in. -/
theorem getElem?_joined (id : Nat) :
    (session.ready (joined first second)).distances[id]? =
      (middle.resolution second).distances[id]?.or (session.ready first).distances[id]? := by
  have resolved := resolution_joined consistent completes acceptsNext
  rw [ready, ready, Machine.getElem?_noteDistances, Machine.getElem?_noteDistances,
    resolved.distances, Option.or_assoc]

omit consistent completes in
/-- The second part files nothing under an earlier number. -/
theorem getElem?_earlier {id : Nat} (earlier : id < middle.nextId) :
    (middle.resolution second).distances[id]? = none :=
  getElem?_resolution middle second fun inside =>
    Nat.not_le.mpr earlier ((spans_of_accepted acceptsNext).bounds id inside).1

omit acceptsNext in
/-- The first part files nothing under a later number. -/
theorem getElem?_later {id : Nat} (later : middle.nextId ≤ id) :
    (session.ready first).distances[id]? = none := by
  rw [completes.nextId_eq] at later
  rw [getElem?_ready consistent completes.accepts, if_neg fun inside => ?_]
  · exact consistent.unused id (Nat.le_trans (le_nextIdAfter session first) later)
  · exact Nat.not_lt.mpr later ((spans_of_accepted completes.accepts).bounds id inside).2

/-- Up to the second part, the distances are those of the first one. -/
theorem getElem?_joined_of_lt {id : Nat} (earlier : id < middle.nextId) :
    (session.ready (joined first second)).distances[id]? =
      (session.ready first).distances[id]? := by
  rw [getElem?_joined consistent completes acceptsNext, getElem?_earlier acceptsNext earlier,
    Option.none_or]

/-- The first part is executed in the same way, whether or not the distances of the
second one are known already. -/
theorem firstPart_alike :
    let ended := session.interpreted fuel first
    let otherEnded := interpret fuel session.echo (session.program first) 0
      (session.ready (joined first second))
    otherEnded.1 = ended.1 ∧ otherEnded.2.1 = none ∧
      (∃ marks, ended.2.2.Alike
        (joining session middle roots first second (session.ready first).distances
          (session.ready (joined first second)).distances)
        marks otherEnded.2.2) ∧
      ∃ bytes, ended.2.2.output.written = session.machine.output.written ++ bytes := by
  let likeness := joining session middle roots first second (session.ready first).distances
    (session.ready (joined first second)).distances
  have located := located_root consistent completes.accepts
  have same : ∀ id, id < middle.nextId -> likeness.after[id]? = likeness.before[id]? :=
    fun id => getElem?_joined_of_lt consistent completes acceptsNext
  have notLater := le_nextIdAfter session first
  rw [← completes.nextId_eq] at notLater
  have numbers : (session.ready first).heap.Numbers (· < session.nextId) := consistent.numbers
  -- What is on the heap has neither moved nor been numbered anew.
  have ready : (session.ready first).Alike likeness
      (List.replicate (session.ready first).heap.scopes.size false)
      (session.ready (joined first second)) :=
    located.faithful.alike (.inl fun _ => rfl) rfl rfl rfl
      (numbers.imp fun id used => same id (Nat.lt_of_lt_of_le used notLater))
      (located.faithful.declaredIn.imp fun _ declared inner member =>
        .inl ⟨declared inner member, fun _ => rfl⟩)
  have admits : likeness.Admits likeness.unchanged (Stmt.listIds (session.program first))
      (Stmt.listFunctions (session.program first)) := by
    refine ⟨rfl, .inl fun _ => rfl, rfl, fun _ _ => rfl, fun id inside => same id ?_,
      fun declaration member => .inl ⟨⟨_, List.mem_cons_self, member⟩, fun _ => rfl⟩⟩
    rw [completes.nextId_eq]
    exact ((spans_of_accepted completes.accepts).bounds id inside).2
  -- The first text is respelled by what changes nothing.
  have sameProgram : Stmt.listRespell likeness.unchanged .nowhere [] (session.program first) =
      session.program first := by
    rw [Stmt.listRespell_of_plain (fun _ => rfl) (.inl (NamePair.exchange_of_same rfl))]
    exact Stmt.listRenumber_id _
  obtain ⟨sameCount, interruptions, alike, written⟩ := interpret_alike .nowhere fuel
    session.echo 0 (root_sound completes.accepts).wellFormed admits ready
    (Heap.marked_of_agrees located.agrees)
  rw [sameProgram] at sameCount interruptions alike
  have uninterrupted : (interpret fuel session.echo (session.program first) 0
      (session.ready first)).2.1 = none := completes.uninterrupted
  rw [uninterrupted] at interruptions
  rcases rel_cases interruptions with ⟨-, isNone⟩ | ⟨_, _, impossible, -⟩
  · exact ⟨sameCount, isNone, alike, written⟩
  · cases impossible

omit acceptsNext in
/-- The distances with which the second run begins. -/
theorem getElem?_between (id : Nat) :
    (middle.ready second).distances[id]? =
      (middle.resolution second).distances[id]?.or
        (if id ∈ (session.resolution first).topLevel.toList then none
        else (session.ready first).distances[id]?) := by
  have advances :=
    advances_interpret fuel session.echo 0 rfl (located_root consistent completes.accepts)
  have kept : (session.interpreted fuel first).2.2.distances = (session.ready first).distances :=
    advances.distances
  rw [ready, Machine.getElem?_noteDistances]
  congr 1
  rw [completes.isAfter, finished, Machine.getElem?_forgetDistances, kept]

/-- Between the two runs, the machine is like the one that goes on with the second
part. -/
theorem between_alike
    {marks : List Bool}
    {other : Machine}
    (alike : (session.interpreted fuel first).2.2.Alike
      (joining session middle roots first second (session.ready first).distances
        (session.ready (joined first second)).distances) marks other) :
    (middle.ready second).Alike
      (joining session middle roots first second (middle.ready second).distances
        (session.ready (joined first second)).distances) marks other := by
  have used := (consistent.run completes.accepts completes.runs).numbers
  have kept := numbers_interpreted consistent completes.accepts fuel
  have atEnd : { other with distances := (session.ready (joined first second)).distances } =
      other := by
    have isAfter : other.distances = (session.ready (joined first second)).distances := alike.after
    rw [← isAfter]
  have between : ∀ id, (middle.ready second).distances[id]? = _ :=
    getElem?_between consistent completes
  obtain ⟨accepts, uninterrupted, rfl⟩ := completes
  have same : (session.interpreted fuel first).2.2.heap.Numbers fun id =>
      ((session.finished fuel first).ready second).distances[id]? =
          (session.ready first).distances[id]? ∧
        (session.ready (joined first second)).distances[id]? =
          (session.ready (joined first second)).distances[id]? := by
    refine (Heap.Numbers.and used kept).imp fun id holds => ⟨?_, rfl⟩
    rw [between, getElem?_earlier acceptsNext holds.1, if_neg holds.2, Option.none_or]
  have retabled := alike.retableMoving same
  rw [atEnd] at retabled
  exact retabled

/-- The second part is executed behind the first one as it is on its own. -/
theorem secondPart_alike
    {marks : List Bool}
    {other : Machine}
    (executed : Nat)
    (alike : (middle.ready second).Alike
      (joining session middle roots first second (middle.ready second).distances
        (session.ready (joined first second)).distances) marks other) :
    let likeness := joining session middle roots first second (middle.ready second).distances
      (session.ready (joined first second)).distances
    let ended := middle.interpreted fuel second
    let otherEnded :=
      interpret fuel middle.echo (middle.movedProgram first second) executed other
    otherEnded.1 = executed + ended.1 ∧
      Option.Rel (Interruption.Alike likeness) ended.2.1 otherEnded.2.1 ∧
      (∃ later, ended.2.2.Alike likeness later otherEnded.2.2) ∧
      ∃ bytes, ended.2.2.output.written = middle.machine.output.written ++ bytes := by
  have after := consistent.run completes.accepts completes.runs
  have marked : (middle.ready second).heap.Marked (middle.ready second).globals marks
      (middle.ready second).scope [] := by
    have atGlobals : (middle.ready second).scope = (middle.ready second).globals := after.atGlobals
    rw [atGlobals]
    exact .outermost
  have admits : Likeness.Admits (joining session middle roots first second
        (middle.ready second).distances (session.ready (joined first second)).distances)
      (.moving (Scan.linesBefore first) (middle.resolution second).distances)
      (Stmt.listIds (middle.program second)) (Stmt.listFunctions (middle.program second)) := by
    refine ⟨rfl, .inr fun _ => rfl, rfl, fun id inside => ?_, fun id inside => ?_,
      fun declaration member => .inr ⟨⟨_, List.mem_singleton_self _, member⟩, fun _ => rfl⟩⟩
    · exact ((getElem?_ready after acceptsNext id).trans (if_pos inside)).symm
    · have later := ((spans_of_accepted acceptsNext).bounds id inside).1
      have filed := (getElem?_ready after acceptsNext id).trans (if_pos inside)
      refine (getElem?_joined consistent completes acceptsNext id).trans ?_
      rw [getElem?_later consistent completes later, Option.or_none]
      exact filed.symm
  have parallel := interpret_alike .nowhere fuel middle.echo executed
    (root_sound acceptsNext).wellFormed admits alike marked
  rw [interpret_add fuel middle.echo (middle.program second)] at parallel
  exact parallel

/-- Interpreting both parts comes to the same as interpreting the second one after
the first one has been run. -/
theorem interpreted_joined :
    let likeness := joining session middle roots first second (middle.ready second).distances
      (session.ready (joined first second)).distances
    let ended := middle.interpreted fuel second
    let otherEnded := session.interpreted fuel (joined first second)
    otherEnded.1 = (session.interpreted fuel first).1 + ended.1 ∧
      Option.Rel (Interruption.Alike likeness) ended.2.1 otherEnded.2.1 ∧
      (∃ marks, ended.2.2.Alike likeness marks otherEnded.2.2) ∧
      ∃ one two, middle.machine.output.written = session.machine.output.written ++ one ∧
        ended.2.2.output.written = middle.machine.output.written ++ two := by
  obtain ⟨sameCount, uninterrupted, ⟨marks, alike⟩, one, isOne⟩ :=
    firstPart_alike consistent completes acceptsNext
  obtain ⟨count, interruptions, alikeAfter, two, isTwo⟩ :=
    secondPart_alike consistent completes acceptsNext (session.interpreted fuel first).1
      (between_alike consistent completes acceptsNext alike)
  have sameEcho : middle.echo = session.echo := by
    rw [completes.isAfter]
    rfl
  have isProgram : session.program (joined first second) =
      session.program first ++ middle.movedProgram first second :=
    congrArg ParsedSource.result (parseProgram_joined completes acceptsNext)
  have isInterpreted : session.interpreted fuel (joined first second) =
      interpret fuel middle.echo (middle.movedProgram first second)
        (session.interpreted fuel first).1
        (interpret fuel session.echo (session.program first) 0
          (session.ready (joined first second))).2.2 := by
    rw [Session.interpreted, isProgram, interpret_append uninterrupted, sameCount, sameEcho]
  have sameOutput : middle.machine.output = (session.interpreted fuel first).2.2.output := by
    rw [completes.isAfter]
    rfl
  dsimp only
  rw [isInterpreted]
  refine ⟨count, interruptions, alikeAfter, one, two, ?_, isTwo⟩
  rw [sameOutput]
  exact isOne

/-! ## What both ways leave -/

/-- The same distances are left in the end. -/
theorem getElem?_finished (id : Nat) :
    (session.finished fuel (joined first second)).machine.distances[id]? =
      (middle.finished fuel second).machine.distances[id]? := by
  obtain ⟨-, -, ⟨marks, alike⟩, -⟩ := interpreted_joined consistent completes acceptsNext
  have sameTopLevel := (resolution_joined consistent completes acceptsNext).topLevel
  have before : (middle.interpreted fuel second).2.2.distances =
      (middle.ready second).distances := alike.before
  have after : (session.interpreted fuel (joined first second)).2.2.distances =
      (session.ready (joined first second)).distances := alike.after
  rw [finished, finished, Machine.getElem?_forgetDistances, Machine.getElem?_forgetDistances,
    before, after, sameTopLevel, getElem?_joined consistent completes acceptsNext,
    getElem?_between consistent completes, Array.toList_append]
  by_cases listed : id ∈ (session.resolution first).topLevel.toList
  · have earlier : id < middle.nextId := by
      rw [completes.nextId_eq]
      exact ((spans_of_accepted completes.accepts).bounds id (mem_ids_of_mem_topLevel listed)).2
    rw [if_pos (List.mem_append_left _ listed), if_pos listed, Option.or_none,
      getElem?_earlier acceptsNext earlier, ite_self]
  · simp only [List.mem_append, listed, false_or, if_false]

/-- No function has a number that is dropped in the end. -/
theorem numbers_joined :
    (middle.interpreted fuel second).2.2.heap.Numbers fun id =>
      id ∉ (middle.resolution second).topLevel.toList ∧
        id ∉ (session.resolution first).topLevel.toList := by
  have after := consistent.run completes.accepts completes.runs
  refine (numbers_interpreted after acceptsNext fuel).and ?_
  have advances := advances_interpret fuel middle.echo 0 rfl (located_root after acceptsNext)
  refine advances.faithful.numbers fun site charted inside id member => ?_
  obtain ⟨root, isRoot, charts⟩ := charted
  rcases List.mem_cons.mp isRoot with rfl | isOld
  · intro listed
    have earlier :=
      ((spans_of_accepted completes.accepts).bounds id (mem_ids_of_mem_topLevel listed)).2
    have later := ((spans_of_accepted acceptsNext).bounds id
      (charts.within.ids_subset charts.sound member)).1
    rw [completes.nextId_eq] at later
    exact Nat.not_lt.mpr later earlier
  · exact not_mem_topLevel consistent completes.accepts ⟨root, isOld, charts⟩ inside member

/-- The joined source ends with the session of the two, up to the lines and the ids'
functions of the second. -/
theorem finished_joined :
    (middle.finished fuel second).SameUpTo
      (·.MovesOnly (Scan.linesBefore first) (session.root first :: roots) [middle.root second])
      (session.finished fuel (joined first second)) := by
  obtain ⟨-, -, ⟨marks, alike⟩, -⟩ := interpreted_joined consistent completes acceptsNext
  have sameTables := getElem?_finished consistent completes acceptsNext
  have alikeAfter : (middle.finished fuel second).machine.Alike
      (joining session middle roots first second (middle.finished fuel second).machine.distances
        (session.finished fuel (joined first second)).machine.distances) marks
      (session.finished fuel (joined first second)).machine := by
    refine alike.retableMoving ((numbers_joined consistent completes acceptsNext).imp
      fun id kept => ⟨?_, ?_⟩)
    · refine (Machine.getElem?_forgetDistances _ _ id).trans ((if_neg kept.1).trans ?_)
      rw [alike.before]
      rfl
    · have unlisted : id ∉ (session.resolution (joined first second)).topLevel.toList := by
        rw [(resolution_joined consistent completes acceptsNext).topLevel, Array.toList_append,
          List.mem_append, not_or]
        exact kept.symm
      refine (Machine.getElem?_forgetDistances _ _ id).trans ((if_neg unlisted).trans ?_)
      rw [alike.after]
      rfl
  have sameNextId : session.nextIdAfter (joined first second) = middle.nextIdAfter second := by
    rw [nextIdAfter, parseProgram_joined completes acceptsNext]
  have sameEcho : session.echo = middle.echo := by
    rw [completes.isAfter]
    rfl
  exact ⟨sameNextId, sameEcho, alike.output, alike.globals, alike.globalScope_eq, sameTables, _,
    marks, ⟨rfl, rfl, fun _ isLine => isLine, fun _ _ isLine => isLine⟩, alikeAfter⟩

end Tables

end Joined

/-- A program may be split over two runs.  If the first part is run without any
error, and the second one, run next, has no static error, then the text of both
parts has no static error either.  Running it writes what the two runs write, one
after the other, executes as many statements, and fails for the same reason, if at
all.  It leaves the same session, up to the lines of the second part: a function is on
the same lines if the first part or a program before it declares it, and on later ones
if the second part does. -/
theorem splitting_changes_nothing
    {session middle final : Session}
    {roots : List Site}
    {fuel : Nat}
    {first second : String}
    {firstResult secondResult : RunResult}
    (past : History session roots)
    (firstRuns : session.run fuel first = some (firstResult, middle))
    (clean : firstResult.errors = [])
    (secondRuns : middle.run fuel second = some (secondResult, final))
    (accepted : secondResult.rejected = false) :
    session.staticErrors (first ++ "\n" ++ second) = [] ∧
      ∃ result whole, session.run fuel (first ++ "\n" ++ second) = some (result, whole) ∧
        result.rejected = false ∧
        result.executed = firstResult.executed + secondResult.executed ∧
        result.failed = secondResult.failed ∧
        result.errors.map (·.withoutLine) = secondResult.errors.map (·.withoutLine) ∧
        (∃ one two, middle.machine.output.written = session.machine.output.written ++ one ∧
          final.machine.output.written = middle.machine.output.written ++ two ∧
          whole.machine.output.written = session.machine.output.written ++ (one ++ two)) ∧
        whole.nextId = final.nextId ∧
        whole.resolvedLocals = final.resolvedLocals ∧
        final.SameUpTo
          (·.MovesOnly (Scan.linesBefore first) (session.root first :: roots) [middle.root second])
          whole := by
  have consistent := past.consistent
  obtain ⟨completes, firstCount⟩ := completes_of_run firstRuns clean
  have acceptsNext := accepts_of_run secondRuns accepted
  have accepts := accepts_joined consistent completes acceptsNext
  obtain ⟨count, interruptions, -, one, two, isOne, isTwo⟩ :=
    interpreted_joined consistent completes acceptsNext
  have same := finished_joined consistent completes acceptsNext
  -- The second run ended, so the joined one does, and with the same outcome.
  rw [run_eq_finished acceptsNext, Option.map_eq_some_iff] at secondRuns
  obtain ⟨_, ended, isFinal⟩ := secondRuns
  cases isFinal
  obtain ⟨result, wholeEnded, executed, rejected, secondCount, errors⟩ :=
    RunResult.ofEnd_alike interruptions ended (session.interpreted fuel (joined first second)).1
  refine ⟨accepts, result, session.finished fuel (joined first second), ?_, rejected, ?_, ?_,
    errors, ⟨one, two, isOne, isTwo, ?_⟩, same.nextId, same.resolvedLocals_eq, same⟩
  · exact (run_eq_finished accepts fuel).trans (congrArg _ wholeEnded)
  · rw [executed, count, firstCount, secondCount]
  · exact RunResult.failed_eq (rejected.trans accepted.symm) errors
  · rw [same.output, ← ByteArray.append_assoc, ← isOne]
    exact isTwo

/-- A session before its first run. -/
def opening : Session :=
  .fresh { reading := fun _ => 0 } {}

/-- A text that declares a function. -/
def declaringText : String :=
  "fn f(a) \x7b return a; \x7d"

/-- A text that calls the function, and then something that is none. -/
def callingText : String :=
  "print f(null); null();"

/-- A text that declares a function and one that calls it and fails, joined. -/
theorem splitting_changes_nothing_calling :
    ∃ firstResult secondResult middle final,
      opening.run 20 declaringText = some (firstResult, middle) ∧
      middle.run 20 callingText = some (secondResult, final) ∧
      ∃ result whole, opening.run 20 (declaringText ++ "\n" ++ callingText) = some (result, whole) ∧
        result.executed = firstResult.executed + secondResult.executed ∧
        result.errors.map (·.withoutLine) = secondResult.errors.map (·.withoutLine) := by
  have bothRun : ((opening.run 20 declaringText).any fun one =>
      one.1.errors.isEmpty &&
        (one.2.run 20 callingText).any fun two => !two.1.rejected) = true := by
    decide +kernel
  obtain ⟨⟨firstResult, middle⟩, firstRuns, nextRuns⟩ := (Option.any_eq_true _ _).mp bothRun
  rw [Bool.and_eq_true, List.isEmpty_iff, Option.any_eq_true] at nextRuns
  obtain ⟨clean, ⟨secondResult, final⟩, secondRuns, accepted⟩ := nextRuns
  rw [Bool.not_eq_true'] at accepted
  obtain ⟨-, result, whole, runs, -, executed, -, errors, -⟩ :=
    splitting_changes_nothing (.fresh _ _ : History opening []) firstRuns clean secondRuns accepted
  exact ⟨firstResult, secondResult, middle, final, firstRuns, secondRuns, result, whole, runs,
    executed, errors⟩

end Session

end TreeWalk
