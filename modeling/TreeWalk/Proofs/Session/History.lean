import TreeWalk.Proofs.Distances
import TreeWalk.Proofs.Evaluation.Following
import TreeWalk.Proofs.Grammar.Numbering
import TreeWalk.Proofs.Parse.Completeness
import TreeWalk.Proofs.Scan

/-!
# The history of a session

A history is a session that runs have led to, with the programs that were
accepted on the way.  The references of these programs have different numbers,
and every function on the heap is faithful to one of them, because the distances
inside of functions are kept when a run is over.
-/

namespace TreeWalk

open Resolution

/-- What a run comes to that has been executed up to an interruption, if any. -/
def RunResult.ofEnd (executed : Nat) : Option Interruption -> Option RunResult
  | none => some ⟨executed, [], false⟩
  | some interruption => interruption.error?.map fun error => ⟨executed, [error], false⟩

namespace Session

/-- The program that a source text is parsed to, whether or not it has errors. -/
def program (session : Session) (source : String) : List Stmt :=
  (parseProgram source session.nextId).result

/-- The number after the last one that parsing a source text gives out. -/
def nextIdAfter (session : Session) (source : String) : Nat :=
  (parseProgram source session.nextId).nextId

/-- What name resolution finds in the program of a source text. -/
def resolution (session : Session) (source : String) : Resolution :=
  resolve session.machine.globalNames (session.program source)

/-- The errors of a source text before it is executed. -/
def staticErrors (session : Session) (source : String) : List Error :=
  (parseProgram source session.nextId).errors ++
    (session.resolution source).errors.toList.map (·.toError)

/-- The program of a source text as the site at which the walk over it begins. -/
def root (session : Session) (source : String) : Site :=
  ⟨{}, .statements (session.program source), { globals := session.machine.globalNames }⟩

/-- The machine on which the program of a source text is executed. -/
def ready (session : Session) (source : String) : Machine :=
  session.machine.noteDistances (session.resolution source).distances

/-- An accepted source is run from the ids it was given. -/
theorem run_of_accepted
    {session : Session}
    {source : String}
    (accepts : session.staticErrors source = [])
    (fuel : Nat) :
    session.run fuel source =
      runAccepted fuel (session.program source) (session.resolution source)
        { session with nextId := session.nextIdAfter source } := by
  rw [run]
  exact if_pos (List.isEmpty_iff.mpr accepts)

/-- A rejected source reports its errors and uses up its ids. -/
theorem run_of_rejected
    {session : Session}
    {source : String}
    (rejects : session.staticErrors source ≠ [])
    (fuel : Nat) :
    session.run fuel source =
      some (⟨0, session.staticErrors source, true⟩,
        { session with nextId := session.nextIdAfter source }) := by
  rw [run]
  exact if_neg fun isEmpty => rejects (List.isEmpty_iff.mp isEmpty)

/-- How interpreting the program of a source text ends: the number of statements
that were executed, what interrupted it, if anything, and the machine. -/
def interpreted
    (session : Session)
    (fuel : Nat)
    (source : String) : Nat × Option Interruption × Machine :=
  interpret fuel session.echo (session.program source) 0 (session.ready source)

/-- The session after an accepted source text has been interpreted. -/
def finished (session : Session) (fuel : Nat) (source : String) : Session :=
  ⟨(session.interpreted fuel source).2.2.forgetDistances
    (session.resolution source).topLevel.toList, session.nextIdAfter source, session.echo⟩

/-- The result of an accepted source and the session it leaves, from how its
interpretation ended. -/
theorem run_eq_finished
    {session : Session}
    {source : String}
    (accepts : session.staticErrors source = [])
    (fuel : Nat) :
    session.run fuel source =
      (RunResult.ofEnd (session.interpreted fuel source).1
        (session.interpreted fuel source).2.1).map (·, session.finished fuel source) := by
  rw [run_of_accepted accepts, runAccepted, finished]
  split
  rename_i executed interruption after outcome
  have ended : session.interpreted fuel source = (executed, interruption, after) := outcome
  rw [ended, Machine.flushed_eq]
  cases interruption with
  | none => rfl
  | some interruption => cases interruption <;> rfl

/-- The session that a run of an accepted program leaves: the machine that
interpreting the program has led to, without the distances outside of
functions. -/
theorem eq_of_run
    {session after : Session}
    {source : String}
    {fuel : Nat}
    {result : RunResult}
    (accepts : session.staticErrors source = [])
    (runs : session.run fuel source = some (result, after)) :
    after =
      ⟨(session.interpreted fuel source).2.2.forgetDistances
        (session.resolution source).topLevel.toList, session.nextIdAfter source, session.echo⟩ := by
  rw [run_eq_finished accepts, Option.map_eq_some_iff] at runs
  obtain ⟨_, -, isFinished⟩ := runs
  cases isFinished
  rfl

/-- Parsing never takes back a reference number. -/
theorem le_nextIdAfter (session : Session) (source : String) :
    session.nextId ≤ session.nextIdAfter source := by
  have kept := Parse.program_follows.keeps
    ⟨(Scan.ofSource source).tokens, (Scan.ofSource source).endToken, session.nextId, #[]⟩
  rw [nextIdAfter, parseProgram, Parsed.withScan, parseTokens]
  dsimp only at kept ⊢
  split
  · rename_i outcome
    rw [outcome] at kept
    exact kept.2
  · rename_i outcome
    rw [outcome] at kept
    exact kept.2

/-- A source text without lexical errors is parsed to the program that its tokens
derive. -/
theorem parseProgram_of_derived
    {source : String}
    {first next : Nat}
    {program : List Stmt}
    (clean : (Scan.ofSource source).errors = [])
    (derived : Grammar.Program first (Scan.ofSource source).tokens program next) :
    parseProgram source first = ⟨program, next, []⟩ := by
  rw [parseProgram, Parse.parseTokens_of_program derived, Parsed.withScan, clean]
  rfl

section Accepted

variable {session : Session} {source : String}

/-- The tokens of an accepted source text derive its program. -/
theorem derived_of_accepted (accepts : session.staticErrors source = []) :
    Grammar.Program session.nextId (Scan.ofSource source).tokens (session.program source)
      (session.nextIdAfter source) := by
  rw [staticErrors, List.append_eq_nil_iff] at accepts
  have noErrors := accepts.1
  rw [parseProgram, Parsed.withScan, List.append_eq_nil_iff] at noErrors
  exact Parse.program_of_parseTokens (List.map_eq_nil_iff.mp noErrors.2)

/-- An accepted source scans without errors. -/
theorem scan_of_accepted (accepts : session.staticErrors source = []) :
    (Scan.ofSource source).errors = [] := by
  rw [staticErrors, List.append_eq_nil_iff] at accepts
  have noErrors := accepts.1
  rw [parseProgram, Parsed.withScan, List.append_eq_nil_iff] at noErrors
  exact noErrors.1

/-- The ids of an accepted program lie between the session's and the next one, each used
once. -/
theorem spans_of_accepted (accepts : session.staticErrors source = []) :
    Grammar.Spans session.nextId (session.nextIdAfter source)
      (Stmt.listIds (session.program source)) :=
  Grammar.program_numbered (derived_of_accepted accepts)

/-- The walk over an accepted program finds nothing wrong. -/
theorem root_sound (accepts : session.staticErrors source = []) : (session.root source).Sound := by
  have derived := derived_of_accepted accepts
  have noErrors := (List.append_eq_nil_iff.mp accepts).2
  rw [List.map_eq_nil_iff, Array.toList_eq_nil_iff] at noErrors
  refine ⟨(spans_of_accepted accepts).distinct, ?_, ?_, ?_, ?_⟩
  · intro id _
    exact Std.TreeMap.getElem?_emptyc
  · intro id _
    exact Array.not_mem_empty id
  · exact Array.size_eq_zero_iff.mpr noErrors
  · exact Grammar.program_yields derived (Scan.tokens_wellSpelled source)

end Accepted

/-- A session that runs have led to, and the programs that were accepted on the
way, the last one first. -/
inductive History : Session -> List Site -> Prop
  | fresh (clock : Clock) (output : Output) : History (.fresh clock output) []
  | echo
      {session : Session}
      {roots : List Site}
      (past : History session roots)
      (echo : Bool) :
      History { session with echo := echo } roots
  | accepted
      {session after : Session}
      {roots : List Site}
      {source : String}
      {fuel : Nat}
      {result : RunResult}
      (past : History session roots)
      (accepts : session.staticErrors source = [])
      (runs : session.run fuel source = some (result, after)) :
      History after (session.root source :: roots)
  | rejected
      {session after : Session}
      {roots : List Site}
      {source : String}
      {fuel : Nat}
      {result : RunResult}
      (past : History session roots)
      (rejects : session.staticErrors source ≠ [])
      (runs : session.run fuel source = some (result, after)) :
      History after roots

/-- A session whose machine is faithful to some programs.  Between two runs the
globals are the current scope, and the numbers of all references have been given
out. -/
structure Consistent (session : Session) (roots : List Site) : Prop where
  faithful : session.machine.Faithful roots
  atGlobals : session.machine.scope = session.machine.globals
  unused : ∀ id, session.nextId ≤ id -> session.machine.distances[id]? = none
  numbered : ∀ root ∈ roots, ∀ id ∈ root.part.ids, id < session.nextId

/-- A fresh session is consistent with an empty history. -/
theorem consistent_fresh (clock : Clock) (output : Output) :
    (Session.fresh clock output).Consistent [] := by
  refine ⟨⟨?_, ?_, ?_, ?_⟩, rfl, ?_, by simp⟩
  · simp [Session.fresh, Machine.fresh, Heap.newScope]
  · rfl
  · intro place closure found
    simp [Session.fresh, Machine.fresh, Heap.newScope, Heap.newNative, Heap.function?] at found
  · intro place ofClass found
    simp [Session.fresh, Machine.fresh, Heap.newScope, Heap.newNative, Heap.class?] at found
  · intro id _
    exact Std.TreeMap.getElem?_emptyc

/-- More numbers may have been given out. -/
theorem Consistent.renumber
    {session : Session}
    {roots : List Site}
    {nextId : Nat}
    (consistent : session.Consistent roots)
    (later : session.nextId ≤ nextId) :
    Consistent { session with nextId := nextId } roots where
  faithful := consistent.faithful
  atGlobals := consistent.atGlobals
  unused id above := consistent.unused id (Nat.le_trans later above)
  numbered root member id inside :=
    Nat.lt_of_lt_of_le (consistent.numbered root member id inside) later

end Session

/-- A charted site stays so under a table that agrees on its ids. -/
theorem Charted.retable
    {roots more : List Site}
    {before after : Distances}
    {site : Site}
    (charted : Charted roots before site)
    (included : roots ⊆ more)
    (same : ∀ id ∈ site.part.ids, after[id]? = before[id]?) :
    Charted more after site := by
  obtain ⟨root, member, sound, outermost, within, filed⟩ := charted
  refine ⟨root, included member, sound, outermost, within, fun id inside => ?_⟩
  rw [same id inside]
  exact filed id inside

/-- A machine stays faithful with another table of distances, if it agrees with
the first one on the references inside of functions. -/
theorem Machine.Faithful.retable
    {roots more : List Site}
    {machine : Machine}
    {distances : Distances}
    (faithful : machine.Faithful roots)
    (included : roots ⊆ more)
    (same : ∀ site, Charted roots machine.distances site -> site.around.functionKind ≠ .none ->
      ∀ id ∈ site.part.ids, distances[id]? = machine.distances[id]?) :
    Machine.Faithful more { machine with distances := distances } := by
  have placed : ∀ {closure : Closure} {receivers : List (Bindings Binding)},
      closure.Placed roots machine receivers ->
        closure.Placed more { machine with distances := distances } receivers := by
    rintro closure receivers ⟨site, outer, charted, part, inside, scopes, agrees⟩
    exact ⟨site, outer, charted.retable included (same site charted inside), part, inside, scopes,
      agrees⟩
  refine ⟨faithful.globalsMade, faithful.outermost, ?_, ?_⟩
  · exact fun place closure found => placed (faithful.functions place closure found)
  · exact fun place ofClass found table member name method isMethod =>
      placed (faithful.methods place ofClass found table member name method isMethod)

namespace Session

section Runs

variable {session : Session} {roots : List Site} {source : String}

/-- Nothing is filed for a program under a number outside of the program. -/
theorem getElem?_resolution
    (session : Session)
    (source : String)
    {id : Nat}
    (outside : id ∉ (session.root source).part.ids) :
    (session.resolution source).distances[id]? = none :=
  ((session.root source).adds_outcome.distances id outside).trans Std.TreeMap.getElem?_emptyc

/-- The distances on the machine that a program is executed on are those of the
program, for its own references, and those of before, for all others. -/
theorem getElem?_ready
    (consistent : session.Consistent roots)
    (accepts : session.staticErrors source = [])
    (id : Nat) :
    (session.ready source).distances[id]? =
      if id ∈ (session.root source).part.ids then (session.resolution source).distances[id]?
      else session.machine.distances[id]? := by
  rw [ready, Machine.getElem?_noteDistances]
  split
  · rename_i inside
    rw [consistent.unused id ((spans_of_accepted accepts).bounds id inside).1, Option.or_none]
  · rename_i outside
    rw [getElem?_resolution session source outside, Option.none_or]

/-- The machine that an accepted program is executed on is located at the
program. -/
theorem located_root
    (consistent : session.Consistent roots)
    (accepts : session.staticErrors source = []) :
    Located (session.root source :: roots) (session.ready source) (session.root source) := by
  refine ⟨?_, ?_, ?_⟩
  · refine consistent.faithful.retable (List.subset_cons_self _ _) ?_
    intro site charted _ id inside
    obtain ⟨root, member, sound, -, within, -⟩ := charted
    have old := consistent.numbered root member id (within.ids_subset sound inside)
    have outside : id ∉ (session.root source).part.ids := fun isNew =>
      Nat.not_lt.mpr ((spans_of_accepted accepts).bounds id isNew).1 old
    have filed := getElem?_ready consistent accepts id
    rwa [if_neg outside] at filed
  · refine ⟨session.root source, List.mem_cons_self, root_sound accepts, rfl, .refl, ?_⟩
    intro id inside
    rw [getElem?_ready consistent accepts id, if_pos inside]
    rfl
  · rw [ready, Machine.noteDistances]
    dsimp only
    rw [consistent.atGlobals]
    exact .outermost

/-- However interpreting a program ends, execution has gone on. -/
theorem advances_interpret
    {machine : Machine}
    {around : Surroundings}
    {walk : Resolution}
    {program : List Stmt}
    (fuel : Nat)
    (echo : Bool)
    (executed : Nat)
    (outside : walk.scopes = [])
    (located : Located roots machine ⟨around, .statements program, walk⟩) :
    Advances roots (· ∈ program.filterMap Stmt.declaredName?) machine
      (interpret fuel echo program executed machine).2.2 := by
  have declares : ∀ step ∈ program, ∀ name, step.declaredName? = some name ->
      name ∈ program.filterMap Stmt.declaredName? :=
    fun step member name isDeclared => List.mem_filterMap.mpr ⟨step, member, isDeclared⟩
  generalize List.filterMap Stmt.declaredName? program = names at declares ⊢
  induction program generalizing machine walk executed with
  | nil => exact .refl located.faithful
  | cons first rest inductionHypothesis =>
    have advances := advances_executeTopLevel fuel echo (located.child List.mem_cons_self rfl)
      (declares first List.mem_cons_self)
    rw [interpret]
    cases outcome : executeTopLevel fuel echo first machine with
    | error interruption after =>
      rwa [Eval.left_of_error outcome] at advances
    | ok result after =>
      rw [Eval.left_of_ok outcome] at advances
      obtain ⟨stillOutside, restLocated⟩ := located_next outside located advances
      exact advances.trans (inductionHypothesis (executed + 1) stillOutside restLocated
        fun step member => declares step (List.mem_cons_of_mem _ member))

/-- The numbers that are listed are those of references in the program. -/
theorem mem_ids_of_mem_topLevel
    {id : Nat}
    (listed : id ∈ (session.resolution source).topLevel.toList) :
    id ∈ (session.root source).part.ids := by
  by_contra outside
  rw [Array.mem_toList_iff] at listed
  exact Array.not_mem_empty id (((session.root source).adds_outcome.topLevel id outside).mp listed)

/-- Inside of functions no number is listed: not in the program, and not in an
earlier one. -/
theorem not_mem_topLevel
    {distances : Distances}
    {site : Site}
    {id : Nat}
    (consistent : session.Consistent roots)
    (accepts : session.staticErrors source = [])
    (charted : Charted (session.root source :: roots) distances site)
    (inside : site.around.functionKind ≠ .none)
    (member : id ∈ site.part.ids) :
    id ∉ (session.resolution source).topLevel.toList := by
  obtain ⟨root, isRoot, sound, -, within, -⟩ := charted
  rw [Array.mem_toList_iff]
  rcases List.mem_cons.mp isRoot with rfl | isOld
  · exact within.not_mem_topLevel sound inside member
  · intro listed
    have old := consistent.numbered root isOld id (within.ids_subset sound member)
    have isNew := mem_ids_of_mem_topLevel (Array.mem_toList_iff.mpr listed)
    exact Nat.not_lt.mpr ((spans_of_accepted accepts).bounds id isNew).1 old

/-- An accepted run leaves a consistent session. -/
theorem Consistent.run
    {fuel : Nat}
    {result : RunResult}
    {after : Session}
    (consistent : session.Consistent roots)
    (accepts : session.staticErrors source = [])
    (runs : session.run fuel source = some (result, after)) :
    after.Consistent (session.root source :: roots) := by
  have located := located_root consistent accepts
  have advances := advances_interpret fuel session.echo 0 rfl located
  have spans := spans_of_accepted accepts
  obtain rfl := eq_of_run accepts runs
  refine ⟨?_, ?_, ?_, ?_⟩
  · refine advances.faithful.retable (List.Subset.refl _) fun site charted inside id member => ?_
    have kept := not_mem_topLevel consistent accepts charted inside member
    exact (Machine.getElem?_forgetDistances _ _ id).trans (if_neg kept)
  · exact advances.scope.trans (consistent.atGlobals.trans advances.globals.symm)
  · intro id above
    dsimp only at above ⊢
    rw [Machine.getElem?_forgetDistances, interpreted]
    split
    · rfl
    · rw [advances.distances, getElem?_ready consistent accepts]
      split
      · rename_i inside
        exact absurd (spans.bounds id inside).2 (Nat.not_lt.mpr above)
      · exact consistent.unused id (Nat.le_trans (le_nextIdAfter session source) above)
  · intro root member id inside
    rcases List.mem_cons.mp member with rfl | isOld
    · exact (spans.bounds id inside).2
    · exact Nat.lt_of_lt_of_le (consistent.numbered root isOld id inside)
        (le_nextIdAfter session source)

end Runs

/-- Whatever runs have led to is consistent. -/
theorem History.consistent
    {session : Session}
    {roots : List Site}
    (past : History session roots) :
    session.Consistent roots := by
  induction past with
  | fresh clock output => exact consistent_fresh clock output
  | echo past echo inductionHypothesis =>
    exact ⟨inductionHypothesis.faithful, inductionHypothesis.atGlobals,
      inductionHypothesis.unused, inductionHypothesis.numbered⟩
  | accepted past accepts runs inductionHypothesis => exact inductionHypothesis.run accepts runs
  | @rejected session after roots source fuel result past rejects runs inductionHypothesis =>
    rw [run_of_rejected rejects] at runs
    cases runs
    exact inductionHypothesis.renumber (le_nextIdAfter session source)

end Session
end TreeWalk
