import TreeWalk.Proofs.Session.Renumbering

/-!
# Rejected runs

A run that is rejected for a static error leaves no trace but the numbers that it
has used up.  All other steps of a session show the same as if it had not been
made.
-/

namespace TreeWalk
namespace Session

/-- What can be done with a session. -/
inductive Step where
  | run (source : String)
  | setEcho (echo : Bool)

/-- What a step shows: the bytes that it writes, the result of its run, if it is
one, and how many references have a distance after it. -/
structure Record where
  step : Step
  written : ByteArray
  result : Option RunResult
  resolvedLocals : Nat

/-- The step is a run that was rejected. -/
def Record.Rejected (record : Record) : Prop :=
  ∃ result, record.result = some result ∧ result.rejected = true

/-- What a step has shown that led from one session to another. -/
def record (session : Session) (step : Step) (result : Option RunResult) (after : Session) :
    Record where
  step := step
  written := after.machine.output.written.extract session.machine.output.written.size
    after.machine.output.written.size
  result := result
  resolvedLocals := after.resolvedLocals

/-- Take a step.  There is no result if the fuel does not suffice. -/
def take (fuel : Nat) (session : Session) : Step -> Option (Record × Session)
  | .run source =>
    (session.run fuel source).map fun (result, after) =>
      (session.record (.run source) (some result) after, after)
  | .setEcho echo =>
    let after := { session with echo := echo }
    some (session.record (.setEcho echo) none after, after)

/-- Take steps in order. -/
def replay (fuel : Nat) : List Step -> Session -> Option (List Record × Session)
  | [], session => some ([], session)
  | first :: rest, session => do
    let (record, after) ← session.take fuel first
    let (records, final) ← replay fuel rest after
    return (record :: records, final)

/-- Some of the steps that are runs and were rejected are left out. -/
inductive Prunes : List Record -> List Record -> Prop
  | nil : Prunes [] []
  | keep
      {records kept : List Record}
      (record : Record)
      (prunes : Prunes records kept) :
      Prunes (record :: records) (record :: kept)
  | drop
      {records kept : List Record}
      {record : Record}
      (rejected : record.Rejected)
      (prunes : Prunes records kept) :
      Prunes (record :: records) kept

/-- An accepted run is never reported as rejected. -/
theorem staticErrors_of_rejected
    {session after : Session}
    {fuel : Nat}
    {source : String}
    {result : RunResult}
    (runs : session.run fuel source = some (result, after))
    (rejected : result.rejected = true) :
    session.staticErrors source ≠ [] := by
  intro accepts
  rw [run_eq_finished accepts, Option.map_eq_some_iff] at runs
  obtain ⟨_, isResult, same⟩ := runs
  cases same
  generalize (session.interpreted fuel source).2.1 = interruption at isResult
  cases interruption with
  | none =>
    cases isResult
    exact Bool.noConfusion rejected
  | some interruption =>
    obtain ⟨error, -, rfl⟩ := Option.map_eq_some_iff.mp isResult
    exact Bool.noConfusion rejected

/-- A rejected run uses up numbers, and does nothing else. -/
theorem eq_of_rejected
    {session after : Session}
    {fuel : Nat}
    {source : String}
    {result : RunResult}
    (runs : session.run fuel source = some (result, after))
    (rejected : result.rejected = true) :
    session.nextId ≤ after.nextId ∧ after = { session with nextId := after.nextId } := by
  rw [run_of_rejected (staticErrors_of_rejected runs rejected)] at runs
  cases runs
  exact ⟨le_nextIdAfter session source, rfl⟩

/-- The record of a step names the step. -/
theorem step_of_take
    {session after : Session}
    {fuel : Nat}
    {step : Step}
    {record : Record}
    (taken : session.take fuel step = some (record, after)) :
    record.step = step := by
  cases step with
  | setEcho echo =>
    cases taken
    rfl
  | run source =>
    obtain ⟨_, -, same⟩ := Option.map_eq_some_iff.mp taken
    cases same
    rfl

/-- A rejected step changes nothing but the next id. -/
theorem eq_of_take_rejected
    {session after : Session}
    {fuel : Nat}
    {step : Step}
    {record : Record}
    (taken : session.take fuel step = some (record, after))
    (rejected : record.Rejected) :
    session.nextId ≤ after.nextId ∧ after = { session with nextId := after.nextId } := by
  obtain ⟨result, isResult, isRejected⟩ := rejected
  cases step with
  | setEcho echo =>
    cases taken
    cases isResult
  | run source =>
    obtain ⟨_, runs, same⟩ := Option.map_eq_some_iff.mp taken
    cases same
    cases isResult
    exact eq_of_rejected runs isRejected

/-- A replay takes its first step, then replays the rest. -/
theorem replay_cons
    {session final : Session}
    {fuel : Nat}
    {first : Step}
    {rest : List Step}
    {records : List Record} :
    replay fuel (first :: rest) session = some (records, final) ↔
      ∃ record after later, session.take fuel first = some (record, after) ∧
        replay fuel rest after = some (later, final) ∧ records = record :: later := by
  rw [replay]
  constructor
  · intro replays
    obtain ⟨⟨record, after⟩, taken, replays⟩ := Option.bind_eq_some_iff.mp replays
    obtain ⟨⟨later, _⟩, replaysRest, same⟩ := Option.bind_eq_some_iff.mp replays
    cases same
    exact ⟨record, after, later, taken, replaysRest, rfl⟩
  · rintro ⟨record, after, later, taken, replaysRest, rfl⟩
    rw [taken, Option.bind_eq_bind, Option.bind_some]
    dsimp only
    rw [replaysRest]
    rfl

theorem renumbered_fresh (clock : Clock) (output : Output) :
    (Session.fresh clock output).Renumbered id 0 (Session.fresh clock output) :=
  ⟨Function.injective_id, fun _ _ => rfl, rfl, rfl, Distances.renumbered_empty id, _,
    (consistent_fresh clock output).faithful.alike (fun _ => rfl) rfl rfl rfl
      (Heap.numbers_of_forall _ fun _ => rfl) (Heap.declares_of_forall _ fun _ _ _ => trivial)⟩

/-- A step leads from a session of a history to another one. -/
theorem History.take
    {session after : Session}
    {roots : List Site}
    {fuel : Nat}
    {step : Step}
    {record : Record}
    (past : History session roots)
    (taken : session.take fuel step = some (record, after)) :
    ∃ roots, History after roots := by
  cases step with
  | setEcho echo =>
    cases taken
    exact ⟨roots, past.echo echo⟩
  | run source =>
    rw [Session.take, Option.map_eq_some_iff] at taken
    obtain ⟨⟨result, final⟩, runs, same⟩ := taken
    cases same
    by_cases accepts : session.staticErrors source = []
    · exact ⟨_, past.accepted accepts runs⟩
    · exact ⟨_, past.rejected accepts runs⟩

section Renumbered

variable
  {number : Nat -> Nat}
  {shift : Nat}
  {session other : Session}

/-- Renumbered sessions have written the same. -/
theorem Renumbered.output
    (renumbered : session.Renumbered number shift other) :
    other.machine.output = session.machine.output := by
  obtain ⟨marks, alike⟩ := renumbered.alike
  exact alike.output

/-- Steps between sessions with other numbers show the same. -/
theorem Renumbered.record
    {after otherAfter : Session}
    (renumbered : session.Renumbered number shift other)
    (renumberedAfter : after.Renumbered number shift otherAfter)
    (step : Step)
    (result : Option RunResult) :
    other.record step result otherAfter = session.record step result after := by
  rw [Session.record, Session.record, renumbered.output, renumberedAfter.output, resolvedLocals,
    renumberedAfter.tables.size_eq renumberedAfter.injective]
  rfl

/-- A step that is taken in a session is taken, and shows the same, in one with
other numbers. -/
theorem Renumbered.take
    {fuel : Nat}
    {step : Step}
    {record : Record}
    {otherAfter : Session}
    (renumbered : session.Renumbered number shift other)
    (atGlobals : session.machine.scope = session.machine.globals)
    (taken : other.take fuel step = some (record, otherAfter)) :
    ∃ after, session.take fuel step = some (record, after) ∧
      after.Renumbered number shift otherAfter := by
  cases step with
  | setEcho echo =>
    cases taken
    have changed : Renumbered number shift { session with echo := echo }
        { other with echo := echo } :=
      ⟨renumbered.injective, renumbered.unused, renumbered.nextId, rfl, renumbered.tables,
        renumbered.alike⟩
    refine ⟨_, ?_, changed⟩
    rw [renumbered.record changed]
    rfl
  | run source =>
    rw [Session.take, Option.map_eq_some_iff] at taken
    obtain ⟨⟨result, final⟩, otherRuns, same⟩ := taken
    cases same
    have both := renumbered.run atGlobals fuel source
    rw [otherRuns] at both
    rcases rel_cases both with ⟨-, isNone⟩ | ⟨⟨_, after⟩, _, runs, isSome, rfl, renumberedAfter⟩
    · exact nomatch isNone
    · cases isSome
      refine ⟨after, ?_, renumberedAfter⟩
      rw [Session.take, runs, renumbered.record renumberedAfter]
      rfl

/-- The steps that are kept show the same without the others. -/
theorem Renumbered.replay
    {roots : List Site}
    {fuel : Nat}
    {steps : List Step}
    {records kept : List Record}
    {otherFinal : Session}
    (renumbered : session.Renumbered number shift other)
    (past : History session roots)
    (replays : replay fuel steps other = some (records, otherFinal))
    (prunes : Prunes records kept) :
    ∃ final, Session.replay fuel (kept.map (·.step)) session = some (kept, final) := by
  induction steps generalizing session other records kept number shift roots with
  | nil =>
    cases replays
    cases prunes
    exact ⟨session, rfl⟩
  | cons first rest inductionHypothesis =>
    obtain ⟨record, otherAfter, later, otherTaken, replaysRest, rfl⟩ := replay_cons.mp replays
    cases prunes with
    | @keep _ kept _ prunes =>
      obtain ⟨after, taken, renumberedAfter⟩ := renumbered.take past.consistent.atGlobals otherTaken
      obtain ⟨_, pastAfter⟩ := past.take taken
      obtain ⟨final, keptReplays⟩ :=
        inductionHypothesis renumberedAfter pastAfter replaysRest prunes
      rw [List.map_cons, step_of_take taken]
      exact ⟨final, replay_cons.mpr ⟨record, after, kept, taken, keptReplays, rfl⟩⟩
    | drop rejected prunes =>
      obtain ⟨later, unchanged⟩ := eq_of_take_rejected otherTaken rejected
      rw [unchanged] at replaysRest
      obtain ⟨_, _, renumberedAfter⟩ := renumbered.spend past.consistent later
      exact inductionHypothesis renumberedAfter past replaysRest prunes

end Renumbered

/-- A run that is rejected does nothing but use up numbers: it writes nothing and
changes no binding and no distance.  And if some rejected runs are left out of
any sequence of steps, all other steps show the same as before. -/
theorem rejected_runs_are_invisible
    (fuel : Nat)
    (clock : Clock)
    (output : Output) :
    (∀ (session after : Session) (source : String) (result : RunResult),
      session.run fuel source = some (result, after) -> result.rejected = true ->
        session.nextId ≤ after.nextId ∧ after = { session with nextId := after.nextId }) ∧
    ∀ (steps : List Step) (records kept : List Record) (final : Session),
      replay fuel steps (.fresh clock output) = some (records, final) -> Prunes records kept ->
        ∃ keptFinal,
          replay fuel (kept.map (·.step)) (.fresh clock output) = some (kept, keptFinal) := by
  refine ⟨fun _ _ _ _ runs rejected => eq_of_rejected runs rejected, ?_⟩
  intro steps records kept final replays prunes
  exact (renumbered_fresh clock output).replay (.fresh clock output) replays prunes

/-- A session that has just begun, with a clock that stands still. -/
def unstarted : Session :=
  .fresh { reading := fun _ => 0 } {}

/-- A source text with references, but without an end of its last statement. -/
def unfinishedText : String := "var a = 1; print a"

/-- A source text with a local variable that is read inside of a function. -/
def readingText : String := "fn f(a) \x7b return a; \x7d print f(null);"

/-- An unfinished source is rejected in front of one that runs. -/
theorem rejected_runs_are_invisible_unfinished :
    ∃ first second final keptFinal,
      replay 20 [.run unfinishedText, .run readingText] unstarted = some ([first, second], final) ∧
      first.Rejected ∧ (second.result.any fun result => !result.rejected) = true ∧
      replay 20 [.run readingText] unstarted = some ([second], keptFinal) := by
  have rejects : unstarted.staticErrors unfinishedText ≠ [] :=
    List.isEmpty_eq_false_iff.mp (by decide +kernel)
  let middle := { unstarted with nextId := unstarted.nextIdAfter unfinishedText }
  have firstTaken : unstarted.take 20 (.run unfinishedText) =
      some (unstarted.record (.run unfinishedText)
        (some ⟨0, unstarted.staticErrors unfinishedText, true⟩) middle, middle) := by
    rw [take, run_of_rejected rejects]
    rfl
  have runs : ((middle.take 20 (.run readingText)).any fun taken =>
      taken.1.result.any fun result => !result.rejected) = true := by
    decide +kernel
  obtain ⟨⟨second, final⟩, secondTaken, accepted⟩ := (Option.any_eq_true _ _).mp runs
  have replaysRest : replay 20 [.run readingText] middle = some ([second], final) :=
    replay_cons.mpr ⟨second, final, [], secondTaken, rfl, rfl⟩
  have replays := replay_cons.mpr ⟨_, middle, _, firstTaken, replaysRest, rfl⟩
  have rejected : (unstarted.record (.run unfinishedText)
      (some ⟨0, unstarted.staticErrors unfinishedText, true⟩) middle).Rejected := ⟨_, rfl, rfl⟩
  obtain ⟨keptFinal, keptReplays⟩ :=
    (rejected_runs_are_invisible 20 { reading := fun _ => 0 } {}).2 _ _ _ _
    replays (.drop rejected (.keep second .nil))
  rw [List.map_singleton, step_of_take secondTaken] at keptReplays
  exact ⟨_, second, final, keptFinal, replays, rejected, accepted, keptReplays⟩

end Session
end TreeWalk
