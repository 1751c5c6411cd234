import TreeWalk.Proofs.Parse.LocalRules
import TreeWalk.Proofs.Resolution.Renumbering
import TreeWalk.Proofs.Session.Likeness
import TreeWalk.Proofs.Session.Parallel

/-!
# Sessions with other numbers

Two sessions that have used up different numbers go on in the same way.  Their
machines are alike: the functions on one heap have other numbers than those on
the other one, and the distances are filed under these.
-/

namespace TreeWalk

/-- The likeness of two runs that differ in the numbers of references alone. -/
def Likeness.renumbering (number : Nat -> Nat) (before after : Distances) : Likeness where
  old := ""
  new := ""
  before := before
  after := after
  number := number
  lines line := ∀ place, line place = place
  keepsSelf := NamePair.exchange_nothing selfName
  keepsSuperclass := NamePair.exchange_nothing superclassName

/-- The spelling that changes the numbers of references alone. -/
def Spelling.renumbering (number : Nat -> Nat) (distances : Distances) : Spelling where
  old := ""
  new := ""
  distances := distances
  line place := place
  number := number

/-- A renumbering changes no names. -/
theorem Spelling.plain_renumbering
    (number : Nat -> Nat)
    (distances : Distances)
    (choice : Choice)
    (chosen : List Bool) :
    (Spelling.renumbering number distances).Plain choice chosen :=
  .inl (NamePair.exchange_of_same rfl)

/-- A renumbering is admitted wherever the tables are renumbered. -/
theorem Likeness.admits_renumbering
    {number : Nat -> Nat}
    {before after : Distances}
    (tables : Distances.Renumbered number before after)
    (ids : List Nat)
    (functions : List FunctionDecl) :
    (Likeness.renumbering number before after).Admits (.renumbering number before) ids functions :=
  ⟨rfl, fun _ => rfl, rfl, fun _ _ => rfl, fun id _ => tables.filed id, fun _ _ => trivial⟩

section Tables

variable
  {number later : Nat -> Nat}
  {before after laterBefore laterAfter : Distances}
  {globals : ScopeRef}
  {marks : List Bool}
  {heap other : Heap}

/-- A closure that is like another up to a renumbering is renumbered. -/
theorem Closure.Alike.eq_renumber
    {coming : List Bool}
    {closure otherClosure : Closure}
    (alike : closure.Alike (.renumbering number before after) heap globals marks coming
      otherClosure) :
    otherClosure =
      ⟨closure.declaration.renumber number, closure.scope, closure.isInitializer⟩ := by
  obtain ⟨-, spelling, choice, chosen, admits, rfl, -⟩ := alike
  have plain : spelling.Plain choice (coming ++ chosen) := by
    refine .inl fun name => ?_
    rw [admits.pair]
    exact NamePair.exchange_of_same rfl name
  rw [FunctionDecl.respell_of_plain admits.line plain, admits.number]
  rfl

/-- Functions stay alike with other tables and with numbers that are the same
inside of them. -/
theorem Closure.Alike.renumber
    {coming : List Bool}
    {closure otherClosure : Closure}
    (alike : closure.Alike (.renumbering number before after) heap globals marks coming
      otherClosure)
    (same : ∀ id ∈ closure.declaration.ids, later id = number id)
    (tables : Distances.Renumbered later laterBefore laterAfter) :
    closure.Alike (.renumbering later laterBefore laterAfter) heap globals marks coming
      otherClosure := by
  have isOther := alike.eq_renumber
  obtain ⟨wellFormed, -, -, chosen, -, -, marked⟩ := alike
  refine ⟨wellFormed, .renumbering later laterBefore, .nowhere, chosen,
    Likeness.admits_renumbering tables _ _, ?_, marked⟩
  rw [isOther, FunctionDecl.respell_of_plain (fun _ => rfl) (Spelling.plain_renumbering _ _ _ _),
    ← FunctionDecl.renumber_congr closure.declaration same]
  rfl

/-- Alike machines stay so under a numbering that agrees on the heap. -/
theorem Machine.Alike.renumber
    {machine otherMachine : Machine}
    (alike : machine.Alike (.renumbering number before after) marks otherMachine)
    (same : machine.heap.Numbers fun id => later id = number id)
    (tables : Distances.Renumbered later laterBefore laterAfter) :
    Machine.Alike (.renumbering later laterBefore laterAfter) marks
      { machine with distances := laterBefore } { otherMachine with distances := laterAfter } :=
  ⟨alike.heap.imp rfl same fun closures sameInside => closures.renumber sameInside tables,
    alike.globals, alike.unmarked, alike.outermost, alike.scope, rfl, rfl, alike.callDepth,
    alike.clock, alike.output⟩

end Tables

/-- Parsing a source text does not depend on where the numbers begin. -/
theorem parseProgram_shift (source : String) (firstId shift : Nat) :
    parseProgram source (firstId + shift) =
      ⟨Stmt.listRenumber (· + shift) (parseProgram source firstId).result,
        (parseProgram source firstId).nextId + shift, (parseProgram source firstId).errors⟩ := by
  rw [parseProgram, parseTokens_shift]
  rfl

namespace Session

/-- Two sessions have come to the same, but that the second one has used up more
numbers on the way, so that it has other numbers for the same references. -/
structure Renumbered
    (number : Nat -> Nat)
    (shift : Nat)
    (session other : Session) : Prop where
  injective : Function.Injective number
  unused : ∀ id, session.nextId ≤ id -> number id = id + shift
  nextId : other.nextId = session.nextId + shift
  echo : other.echo = session.echo
  tables : Distances.Renumbered number session.machine.distances other.machine.distances
  alike : ∃ marks, session.machine.Alike
    (.renumbering number session.machine.distances other.machine.distances) marks other.machine

section Renumbered

variable
  {number : Nat -> Nat}
  {shift : Nat}
  {session other : Session}
  (renumbered : session.Renumbered number shift other)

include renumbered

/-- The same source parses to shifted ids. -/
theorem Renumbered.program_eq (source : String) :
    other.program source = Stmt.listRenumber (· + shift) (session.program source) := by
  rw [program, renumbered.nextId, parseProgram_shift]
  rfl

/-- The same source uses up the same number of ids. -/
theorem Renumbered.nextIdAfter_eq (source : String) :
    other.nextIdAfter source = session.nextIdAfter source + shift := by
  rw [nextIdAfter, renumbered.nextId, parseProgram_shift]
  rfl

/-- The same is wrong with a source text in both sessions. -/
theorem Renumbered.staticErrors_eq (source : String) :
    other.staticErrors source = session.staticErrors source := by
  obtain ⟨marks, alike⟩ := renumbered.alike
  have injective : Function.Injective (· + shift) := fun _ _ => Nat.add_right_cancel
  have resolved := Resolution.renumbered_resolve injective session.machine.globalNames
    (session.program source)
  have sameErrors : (other.resolution source).errors = (session.resolution source).errors := by
    rw [resolution, renumbered.program_eq, alike.globalNames_eq]
    exact resolved.errors
  rw [staticErrors, sameErrors, renumbered.nextId, parseProgram_shift]
  rfl

section Accepted

variable {source : String} (accepts : session.staticErrors source = [])

include accepts

/-- An accepted source parses to renumbered ids. -/
theorem Renumbered.program_of_accepted :
    other.program source = Stmt.listRenumber number (session.program source) := by
  rw [renumbered.program_eq]
  refine (Stmt.listRenumber_congr _ fun id member => ?_).symm
  exact renumbered.unused id ((spans_of_accepted accepts).bounds id member).1

/-- An accepted program is resolved in the same way. -/
theorem Renumbered.resolution :
    Resolution.Renumbered number (session.resolution source) (other.resolution source) := by
  obtain ⟨marks, alike⟩ := renumbered.alike
  rw [Session.resolution, Session.resolution, renumbered.program_of_accepted accepts,
    alike.globalNames_eq]
  exact Resolution.renumbered_resolve renumbered.injective _ _

/-- Interpreting an accepted program comes to the same, on machines that are
alike. -/
theorem Renumbered.interpreted
    (atGlobals : session.machine.scope = session.machine.globals)
    (fuel : Nat) :
    let ended := session.interpreted fuel source
    let otherEnded := other.interpreted fuel source
    otherEnded.1 = ended.1 ∧ otherEnded.2.1 = ended.2.1 ∧
      Distances.Renumbered number ended.2.2.distances otherEnded.2.2.distances ∧
      ∃ marks, ended.2.2.Alike (.renumbering number ended.2.2.distances otherEnded.2.2.distances)
        marks otherEnded.2.2 := by
  obtain ⟨marks, alike⟩ := renumbered.alike
  have tables : Distances.Renumbered number (session.ready source).distances
      (other.ready source).distances :=
    renumbered.tables.note (renumbered.resolution accepts).distances
  have ready : (session.ready source).Alike
      (.renumbering number (session.ready source).distances (other.ready source).distances) marks
      (other.ready source) :=
    alike.renumber (Heap.numbers_of_forall _ fun _ => rfl) tables
  have marked : (session.ready source).heap.Marked (session.ready source).globals marks
      (session.ready source).scope [] := by
    have stillAtGlobals : (session.ready source).scope = (session.ready source).globals := atGlobals
    rw [stillAtGlobals]
    exact .outermost
  have sameProgram : Stmt.listRespell (.renumbering number (session.ready source).distances)
      .nowhere [] (session.program source) = other.program source := by
    rw [renumbered.program_of_accepted accepts]
    exact Stmt.listRespell_of_plain (fun _ => rfl) (Spelling.plain_renumbering _ _ _ _) _
  obtain ⟨sameCount, interruptions, ⟨later, alikeAfter⟩, -⟩ := interpret_alike .nowhere fuel
    session.echo 0 (root_sound accepts).wellFormed (Likeness.admits_renumbering tables _ _) ready
    marked
  rw [sameProgram] at sameCount interruptions alikeAfter
  dsimp only
  rw [Session.interpreted, Session.interpreted, renumbered.echo]
  refine ⟨sameCount, ?_, ?_, later, ?_⟩
  · exact eq_of_exact (fun line isStill => isStill) interruptions
  · rw [alikeAfter.before, alikeAfter.after]
    exact tables
  · rw [alikeAfter.before, alikeAfter.after]
    exact alikeAfter

end Accepted

/-- A source text is run with the same result in both sessions. -/
theorem Renumbered.run
    (atGlobals : session.machine.scope = session.machine.globals)
    (fuel : Nat)
    (source : String) :
    Option.Rel
      (fun ended otherEnded =>
        otherEnded.1 = ended.1 ∧ ended.2.Renumbered number shift otherEnded.2)
      (session.run fuel source) (other.run fuel source) := by
  have unused : ∀ id, session.nextIdAfter source ≤ id -> number id = id + shift :=
    fun id above => renumbered.unused id (Nat.le_trans (le_nextIdAfter session source) above)
  have sameErrors := renumbered.staticErrors_eq source
  by_cases accepts : session.staticErrors source = []
  · have otherAccepts : other.staticErrors source = [] := sameErrors.trans accepts
    obtain ⟨sameCount, sameInterruption, tables, marks, alike⟩ :=
      renumbered.interpreted accepts atGlobals fuel
    have sameTopLevel := congrArg Array.toList (renumbered.resolution accepts).topLevel
    rw [Array.toList_map] at sameTopLevel
    have finalTables :=
      tables.forget renumbered.injective (session.resolution source).topLevel.toList
    rw [← sameTopLevel] at finalTables
    have finished : (session.finished fuel source).Renumbered number shift
        (other.finished fuel source) :=
      ⟨renumbered.injective, unused, renumbered.nextIdAfter_eq source, renumbered.echo, finalTables,
        marks, alike.renumber (Heap.numbers_of_forall _ fun _ => rfl) finalTables⟩
    rw [run_eq_finished accepts, run_eq_finished otherAccepts, sameCount, sameInterruption]
    cases RunResult.ofEnd (session.interpreted fuel source).1
      (session.interpreted fuel source).2.1 with
    | none => exact .none
    | some result => exact .some ⟨rfl, finished⟩
  · have otherRejects : other.staticErrors source ≠ [] := sameErrors ▸ accepts
    rw [run_of_rejected accepts, run_of_rejected otherRejects, sameErrors]
    exact .some ⟨rfl, renumbered.injective, unused, renumbered.nextIdAfter_eq source,
      renumbered.echo, renumbered.tables, renumbered.alike⟩

/-- The second session may use up further numbers. -/
theorem Renumbered.spend
    {roots : List Site}
    {nextId : Nat}
    (consistent : session.Consistent roots)
    (later : other.nextId ≤ nextId) :
    ∃ number shift, session.Renumbered number shift { other with nextId := nextId } := by
  let further : Nat -> Nat := fun id =>
    if id < session.nextId then number id else id + (nextId - session.nextId)
  have atUsed : ∀ id, id < session.nextId -> further id = number id := fun id used => if_pos used
  have atUnused : ∀ id, session.nextId ≤ id -> further id = id + (nextId - session.nextId) :=
    fun id above => if_neg (Nat.not_lt.mpr above)
  have enough : shift ≤ nextId - session.nextId := by
    have isLater := renumbered.nextId
    omega
  -- The old numbering is injective, and reaches all of the numbers that are left out.
  have apart : ∀ first second, first < session.nextId -> session.nextId ≤ second ->
      further first ≠ further second := by
    intro first second used above same
    rw [atUsed first used, atUnused second above] at same
    have reached := renumbered.unused (second + (nextId - session.nextId - shift)) (by omega)
    have isSecond := renumbered.injective (same.trans (by rw [reached]; omega))
    omega
  have injective : Function.Injective further := by
    intro first second same
    rcases Nat.lt_or_ge first session.nextId with used | above <;>
      rcases Nat.lt_or_ge second session.nextId with otherUsed | otherAbove
    · rw [atUsed first used, atUsed second otherUsed] at same
      exact renumbered.injective same
    · exact absurd same (apart first second used otherAbove)
    · exact absurd same.symm (apart second first otherUsed above)
    · rw [atUnused first above, atUnused second otherAbove] at same
      exact Nat.add_right_cancel same
  have tables : Distances.Renumbered further session.machine.distances other.machine.distances := by
    refine renumbered.tables.congr injective fun id isFiled => atUsed id ?_
    by_contra isUnused
    exact isFiled (consistent.unused id (Nat.not_lt.mp isUnused))
  obtain ⟨marks, alike⟩ := renumbered.alike
  refine ⟨further, nextId - session.nextId, injective, atUnused, ?_, renumbered.echo, tables,
    marks, alike.renumber (consistent.numbers.imp atUsed) tables⟩
  have isLater := renumbered.nextId
  dsimp only
  omega

end Renumbered

end Session

end TreeWalk
