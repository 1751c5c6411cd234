import TreeWalk.Proofs.Resolution.Respelling
import TreeWalk.Proofs.Scan.Renaming
import TreeWalk.Proofs.Session.Likeness
import TreeWalk.Proofs.Session.Parallel

/-!
# Local names

Renaming a local variable throughout the scope that it belongs to changes nothing
that can be observed.  The source text with the new name is accepted again, and
running it comes to the same, on a machine that is alike.
-/

namespace TreeWalk

/-- The spelling that exchanges two names in chosen scopes, and nothing else. -/
def Spelling.exchanging (pair : NamePair) (distances : Distances) : Spelling where
  toNamePair := pair
  distances := distances
  line place := place
  number id := id

/-- Two names that can be written as identifiers. -/
structure NamePair.Identifiers (pair : NamePair) : Prop where
  old : Piece.isIdentifier pair.old = true
  new : Piece.isIdentifier pair.new = true

namespace NamePair.Identifiers

variable {pair : NamePair} (identifiers : pair.Identifiers)

include identifiers

/-- Identifiers are not exchanged with keywords. -/
theorem exchange_keyword
    {word : String}
    (isKeyword : Piece.isIdentifier word = false) :
    pair.exchange word = word := by
  refine exchange_of_ne ?_ ?_
  · rintro rfl
    exact Bool.false_ne_true (isKeyword.symm.trans identifiers.old)
  · rintro rfl
    exact Bool.false_ne_true (isKeyword.symm.trans identifiers.new)

theorem keepsSelf : pair.exchange selfName = selfName :=
  identifiers.exchange_keyword (by decide +kernel)

theorem keepsSuperclass : pair.exchange superclassName = superclassName :=
  identifiers.exchange_keyword (by decide +kernel)

/-- The likeness of two runs that differ in local names alone. -/
def likeness (before after : Distances) : Likeness where
  toNamePair := pair
  before := before
  after := after
  number id := id
  lines line := ∀ place, line place = place
  keepsSelf := identifiers.keepsSelf
  keepsSuperclass := identifiers.keepsSuperclass

end NamePair.Identifiers

/-- Nothing but two names in marked scopes tells the runs apart. -/
structure Likeness.RenamesOnly (pair : NamePair) (likeness : Likeness) : Prop where
  samePair : likeness.toNamePair = pair
  sameNumber : likeness.number = fun id => id
  exact : likeness.Exact

namespace Session

/-- A text is a source text in which a local variable has another name: the
declarations of the name in chosen scopes, and the references that mean such a
scope, have the new name in place of the old one. -/
structure Renames
    (session : Session)
    (pair : NamePair)
    (choice : Choice)
    (source renamed : String) : Prop where
  pieces : List.Forall₂ (Piece.Renamed pair.old pair.new) (TreeWalk.pieces source)
    (TreeWalk.pieces renamed)
  parsed : parseProgram renamed session.nextId =
    ⟨Stmt.listRespell (.exchanging pair (session.resolution source).distances) choice []
      (session.program source), session.nextIdAfter source, []⟩

/-- The renamed text parses to the respelled program. -/
theorem Renames.program_eq
    {session : Session}
    {pair : NamePair}
    {choice : Choice}
    {source renamed : String}
    (renames : session.Renames pair choice source renamed) :
    session.program renamed =
      Stmt.listRespell (.exchanging pair (session.resolution source).distances) choice []
        (session.program source) :=
  congrArg ParsedSource.result renames.parsed

section Renaming

variable
  {session : Session}
  {pair : NamePair}
  {source renamed : String}
  {choice : Choice}
  (accepts : session.staticErrors source = [])
  (identifiers : pair.Identifiers)
  (fresh : ∀ token ∈ (Scan.ofSource source).tokens, token.lexeme ≠ pair.new)

include accepts identifiers fresh

/-- The text with the new name can be written down. -/
theorem exists_renames (choice : Choice) :
    ∃ renamed, session.Renames pair choice source renamed := by
  have respells : Grammar.Respells (.exchanging pair (session.resolution source).distances)
      (Stmt.listRespell _ choice []) Grammar.Program :=
    Grammar.program_respells (fun _ => rfl) choice []
  obtain ⟨tokens, respelled, derived⟩ := respells (derived_of_accepted accepts)
  obtain ⟨renamed, pieces, isScanned, clean⟩ := Scan.exists_source (fun _ => rfl) identifiers.new
    (scan_of_accepted accepts) fresh respelled
  refine ⟨renamed, pieces, parseProgram_of_derived clean ?_⟩
  rw [isScanned]
  exact derived

/-- The program can be spelled anew, because the new name does not occur in it. -/
theorem root_fits :
    (session.root source).Fits (.exchanging pair (session.resolution source).distances) := by
  refine ⟨root_sound accepts, fun _ => rfl, fun _ _ => rfl, ?_, identifiers.keepsSelf,
    identifiers.keepsSuperclass⟩
  refine Grammar.program_yields (derived_of_accepted accepts) fun token member => ?_
  refine (Scan.tokens_wellSpelled source token member).imp fun _ => ?_
  by_cases isOld : token.lexeme = pair.old
  · exact .inl isOld
  · exact .inr (NamePair.exchange_of_ne isOld (fresh token member))

/-- The program with the new name is resolved in the same way. -/
theorem Renames.resolution (renames : session.Renames pair choice source renamed) :
    Resolution.Alike pair ∅ #[] [] (session.resolution source) (session.resolution renamed) := by
  have start : Resolution.Alike pair ∅ #[] [] { globals := session.machine.globalNames }
      { globals := session.machine.globalNames } :=
    ⟨.outermost, List.Subset.refl _, fun _ => rfl, rfl, rfl⟩
  rw [Session.resolution, Session.resolution, renames.program_eq]
  exact Resolution.alike_statements {} _ choice start (root_fits accepts identifiers fresh)
    fun chosen => Bool.noConfusion chosen

/-- The text with the new name is accepted. -/
theorem Renames.accepted (renames : session.Renames pair choice source renamed) :
    session.staticErrors renamed = [] := by
  have resolved := renames.resolution accepts identifiers fresh
  rw [staticErrors, renames.parsed, resolved.clean]
  rfl

/-- Both texts are run with the same distances. -/
theorem Renames.ready_eq (renames : session.Renames pair choice source renamed) (id : Nat) :
    (session.ready renamed).distances[id]? = (session.ready source).distances[id]? := by
  have resolved := renames.resolution accepts identifiers fresh
  rw [ready, ready, Machine.getElem?_noteDistances, Machine.getElem?_noteDistances,
    resolved.distances, Std.TreeMap.getElem?_emptyc, Option.or_none]

/-- Interpreting the program with the new name comes to the same. -/
theorem Renames.interpreted
    {roots : List Site}
    (consistent : session.Consistent roots)
    (renames : session.Renames pair choice source renamed)
    (fuel : Nat) :
    let ended := session.interpreted fuel source
    let otherEnded := session.interpreted fuel renamed
    otherEnded.1 = ended.1 ∧ otherEnded.2.1 = ended.2.1 ∧
      ∃ marks, ended.2.2.Alike
        (identifiers.likeness (session.ready source).distances (session.ready renamed).distances)
        marks otherEnded.2.2 := by
  have located := located_root consistent accepts
  have sameDistances := renames.ready_eq accepts identifiers fresh
  have ready : (session.ready source).Alike
      (identifiers.likeness (session.ready source).distances (session.ready renamed).distances)
      (List.replicate (session.ready source).heap.scopes.size false) (session.ready renamed) :=
    located.faithful.alike (fun _ => rfl) rfl rfl rfl
      (Heap.numbers_of_forall _ sameDistances) (Heap.declares_of_forall _ fun _ _ _ => trivial)
  have admits : (identifiers.likeness (session.ready source).distances
      (session.ready renamed).distances).Admits
      (.exchanging pair (session.resolution source).distances)
      (Stmt.listIds (session.program source)) (Stmt.listFunctions (session.program source)) := by
    refine ⟨rfl, fun _ => rfl, rfl, fun id inside => ?_, fun id _ => sameDistances id,
      fun _ _ => trivial⟩
    exact ((getElem?_ready consistent accepts id).trans (if_pos inside)).symm
  have marked : (session.ready source).heap.Marked (session.ready source).globals
      (List.replicate (session.ready source).heap.scopes.size false)
      (session.ready source).scope [] :=
    Heap.marked_of_agrees located.agrees
  obtain ⟨sameCount, interruptions, ⟨later, alike⟩, -⟩ := interpret_alike choice fuel
    session.echo 0 (root_sound accepts).wellFormed admits ready marked
  rw [← renames.program_eq] at sameCount interruptions alike
  exact ⟨sameCount, eq_of_exact (fun _ isStill => isStill) interruptions, later, alike⟩

/-- Both sessions end the same up to the renaming. -/
theorem Renames.finished
    {roots : List Site}
    (consistent : session.Consistent roots)
    (renames : session.Renames pair choice source renamed)
    (fuel : Nat) :
    (session.finished fuel source).SameUpTo (·.RenamesOnly pair)
      (session.finished fuel renamed) := by
  obtain ⟨-, -, marks, alike⟩ := renames.interpreted accepts identifiers fresh consistent fuel
  have sameTopLevel :
      (session.resolution renamed).topLevel = (session.resolution source).topLevel :=
    (renames.resolution accepts identifiers fresh).topLevel.trans Array.empty_append
  have sameTables : ∀ id : Nat, (session.finished fuel renamed).machine.distances[id]? =
      (session.finished fuel source).machine.distances[id]? := by
    intro id
    rw [Session.finished, Session.finished, sameTopLevel, Machine.getElem?_forgetDistances,
      Machine.getElem?_forgetDistances, alike.before, alike.after]
    exact congrArg _ (renames.ready_eq accepts identifiers fresh id)
  have alikeAfter : (session.finished fuel source).machine.Alike
      (identifiers.likeness (session.finished fuel source).machine.distances
        (session.finished fuel renamed).machine.distances) marks
      (session.finished fuel renamed).machine := by
    refine alike.retable rfl rfl (fun _ isStill => isStill) (fun _ _ isStill => isStill)
      ((numbers_interpreted consistent accepts fuel).imp fun id kept => ⟨?_, ?_⟩)
    · exact (Machine.getElem?_forgetDistances _ _ id).trans
        ((if_neg kept).trans (by rw [alike.before]))
    · rw [← sameTopLevel] at kept
      exact (Machine.getElem?_forgetDistances _ _ id).trans
        ((if_neg kept).trans (by rw [alike.after]; rfl))
  have sameNextId : session.nextIdAfter renamed = session.nextIdAfter source := by
    rw [nextIdAfter, renames.parsed]
  exact ⟨sameNextId, rfl, alike.output, alike.globals, alike.globalScope_eq, sameTables, _, marks,
    ⟨rfl, rfl, fun _ isStill => isStill⟩, alikeAfter⟩

/-- Running the text with the new name comes to the same. -/
theorem Renames.run
    {roots : List Site}
    (consistent : session.Consistent roots)
    (renames : session.Renames pair choice source renamed)
    (fuel : Nat) :
    Option.Rel
      (fun ended otherEnded => otherEnded.1 = ended.1 ∧
        ended.2.SameUpTo (·.RenamesOnly pair) otherEnded.2)
      (session.run fuel source) (session.run fuel renamed) := by
  have otherAccepts := renames.accepted accepts identifiers fresh
  obtain ⟨sameCount, sameInterruption, marks, alike⟩ :=
    renames.interpreted accepts identifiers fresh consistent fuel
  have finished := renames.finished accepts identifiers fresh consistent fuel
  rw [run_eq_finished accepts, run_eq_finished otherAccepts, sameCount, sameInterruption]
  cases RunResult.ofEnd (session.interpreted fuel source).1
    (session.interpreted fuel source).2.1 with
  | none => exact .none
  | some result => exact .some ⟨rfl, finished⟩

end Renaming

/-- In an accepted source text, let a name be put in place of another one in the
scopes of some blocks, functions and methods in which only variables and
parameters have that name.  If the new name did not occur before, then the text is
accepted again, and running it has the same result, the same output and the same
global bindings, up to the names in local scopes that functions remember. -/
theorem local_names_do_not_matter
    {session : Session}
    {roots : List Site}
    {source : String}
    {pair : NamePair}
    (past : History session roots)
    (accepts : session.staticErrors source = [])
    (identifiers : pair.Identifiers)
    (fresh : ∀ token ∈ (Scan.ofSource source).tokens, token.lexeme ≠ pair.new)
    (choice : Choice) :
    ∃ renamed, session.Renames pair choice source renamed ∧
      session.staticErrors renamed = [] ∧
      ∀ fuel, Option.Rel
        (fun ended otherEnded => otherEnded.1 = ended.1 ∧
          ended.2.SameUpTo (·.RenamesOnly pair) otherEnded.2)
        (session.run fuel source) (session.run fuel renamed) := by
  obtain ⟨renamed, renames⟩ := exists_renames accepts identifiers fresh choice
  exact ⟨renamed, renames, renames.accepted accepts identifiers fresh,
    renames.run accepts identifiers fresh past.consistent⟩

/-- A session in which nothing has been declared yet. -/
def blank : Session :=
  .fresh { reading := fun _ => 0 } {}

/-- A source text in which a local variable hides a global one that its initializer
reads. -/
def shadowingText : String :=
  "var a; \x7b var a = a; print a; \x7d"

/-- The name of the two variables, and one that does not occur. -/
def otherName : NamePair :=
  ⟨"a", "b"⟩

/-- A local variable that shadows the global one in its own initializer is renamed. -/
theorem local_names_do_not_matter_shadowing :
    blank.staticErrors shadowingText = [] ∧ otherName.Identifiers ∧
      ∃ renamed, blank.Renames otherName (fun _ => true) shadowingText renamed ∧
        blank.staticErrors renamed = [] ∧
        Option.Rel
          (fun ended otherEnded => otherEnded.1 = ended.1 ∧
            ended.2.SameUpTo (·.RenamesOnly otherName) otherEnded.2)
          (blank.run 9 shadowingText) (blank.run 9 renamed) := by
  have accepts : blank.staticErrors shadowingText = [] :=
    List.isEmpty_iff.mp (by decide +kernel)
  have identifiers : otherName.Identifiers := ⟨by decide +kernel, by decide +kernel⟩
  obtain ⟨renamed, renames, accepted, runs⟩ := local_names_do_not_matter
    (.fresh _ _ : History blank []) accepts identifiers (by decide +kernel) fun _ => true
  exact ⟨accepts, identifiers, renamed, renames, accepted, runs 9⟩

end Session

end TreeWalk
