import TreeWalk.Proofs.Evaluation.FaultLines
import TreeWalk.Proofs.Evaluation.Pouring

/-!
# Where an output is full

An evaluation with a limited output goes side by side with the same evaluation on an
unlimited one, as long as there is room: it visits the same tasks.  So if it is
interrupted because the output is full, then at a print statement that the unlimited
evaluation visits as well, and whose line is the first one without room.
-/

namespace TreeWalk

/-- Evaluation that finds the output full says so in the text of the output. -/
def fullTextInvariant (text : String) : Invariant where
  sound machine := machine.output.fullText = text
  leads _ _ := True
  admits _ _ := True
  interrupts interruption := ∀ other, interruption = .outputFull other -> other = text
  sound_of_eq sound _ _ _ sameText := sameText.trans sound
  leads_refl _ := trivial
  leads_trans _ _ := trivial
  interrupts_orLine := by
    intro interruption line isText other same
    cases interruption with
    | outputFull => exact isText other same
    | failure own => cases own <;> cases same
    | outOfFuel => cases same
  interrupts_failure _ _ _ _ := nofun
  interrupts_outputFull sound _ same := (Interruption.outputFull.inj same).symm.trans sound
  interrupts_outOfFuel := nofun
  raises _ _ := nofun
  admits_begun _ _ _ _ _ _ := trivial
  allows_fetched _ _ sound := ⟨trivial, sound⟩
  allows_stored _ _ _ sound := ⟨trivial, sound⟩
  allows_field _ _ _ sound := ⟨trivial, sound⟩
  allows_declared _ _ _ _ sound := ⟨trivial, sound⟩
  allows_function _ sound := ⟨trivial, sound⟩
  allows_className _ _ _ _ _ sound := ⟨trivial, sound⟩
  allows_superclass _ _ _ sound := ⟨trivial, sound⟩
  allows_plainClass _ _ sound := ⟨trivial, sound⟩
  allows_subclass _ _ _ sound := ⟨trivial, sound⟩
  allows_block _ sound := ⟨trivial, sound⟩
  allows_parameters _ _ sound := ⟨trivial, sound⟩
  allows_instance _ sound := ⟨trivial, sound⟩
  allows_receiver _ _ sound := ⟨trivial, sound⟩

/-- Two machines have done the same, one writing to an unlimited output and the other
one to a sink.  All bytes so far have been kept by both. -/
structure Machine.Beside (origin sink : Output) (bytes : ByteArray) (free limited : Machine) :
    Prop where
  written : free.output = origin.keep bytes
  room : sink.HasRoom bytes.size
  same : limited = free.writingTo (sink.keep bytes)

section Beside

variable
  {origin sink : Output}
  {bytes : ByteArray}
  {free limited after : Machine}

/-- At the start, the machine with the sink has written what the free one has. -/
theorem Machine.Beside.start (free : Machine) (sink : Output) :
    Machine.Beside free.output sink .empty free (free.writingTo sink) where
  written := by rw [Output.keep_empty]
  room := fun _ _ => Nat.zero_le _
  same := by rw [Output.keep_empty]

/-- With a limited output an evaluation comes to the result that it has without a
limit. -/
theorem Machine.Beside.ok
    {α : Type}
    {evaluation : Eval α}
    {result : α}
    (beside : Machine.Beside origin sink bytes free limited)
    (unlimited : origin.capacity = none)
    (pours : Pours evaluation)
    (ended : evaluation limited = .ok result after) :
    ∃ more freeAfter, evaluation free = .ok result freeAfter ∧
      Machine.Beside origin sink more freeAfter after := by
  obtain ⟨written, room, rfl⟩ := beside
  obtain ⟨more, poured⟩ := pours free (by rw [written, Output.capacity_keep, unlimited])
  by_cases ample : (sink.keep bytes).HasRoom more.size
  · have redirected := poured.ample _ ample
    have left := poured.written
    rw [ended] at redirected
    cases outcome : evaluation free with
    | error interruption final =>
      rw [outcome] at redirected
      cases redirected
    | ok freeResult freeAfter =>
      rw [outcome] at redirected
      rw [Eval.left, outcome, written, Output.keep_keep] at left
      cases redirected
      refine ⟨bytes ++ more, freeAfter, rfl, left, Output.hasRoom_append.mpr ⟨room, ample⟩, ?_⟩
      rw [Output.keep_keep]
  · obtain ⟨remaining, limit, exceeded⟩ := Output.exists_room_of_not_hasRoom ample
    obtain ⟨stopped, stops⟩ := poured.scant remaining exceeded
    rw [stops _ limit] at ended
    cases ended

/-- A task begins the same tasks whatever the output. -/
theorem Begins.beside
    {outer inner : Task}
    {final : Machine}
    (begins : Begins outer limited inner final)
    (unlimited : origin.capacity = none)
    (beside : Machine.Beside origin sink bytes free limited) :
    ∃ more freeFinal, Begins outer free inner freeFinal ∧
      Machine.Beside origin sink more freeFinal final := by
  -- Whatever has ended beside the sink had room there, so it ends in the same way without it.
  have evaluated : ∀ {fuel value result middle},
      Eval.evaluate fuel value limited = .ok result middle -> ∃ more freeMiddle,
        Eval.evaluate fuel value free = .ok result freeMiddle ∧
          Machine.Beside origin sink more freeMiddle middle :=
    fun ended => beside.ok unlimited (pours_evaluate _ _) ended
  cases begins with
  | grouping => exact ⟨_, _, .grouping, beside⟩
  | unary => exact ⟨_, _, .unary, beside⟩
  | binaryLeft => exact ⟨_, _, .binaryLeft, beside⟩
  | binaryRight first =>
    obtain ⟨more, final, freeFirst, further⟩ := evaluated first
    exact ⟨more, final, .binaryRight freeFirst, further⟩
  | logicalLeft => exact ⟨_, _, .logicalLeft, beside⟩
  | logicalRight first undecided =>
    obtain ⟨more, final, freeFirst, further⟩ := evaluated first
    exact ⟨more, final, .logicalRight freeFirst undecided, further⟩
  | assigned => exact ⟨_, _, .assigned, beside⟩
  | store first =>
    obtain ⟨more, final, freeFirst, further⟩ := evaluated first
    exact ⟨more, final, .store freeFirst, further⟩
  | callee => exact ⟨_, _, .callee, beside⟩
  | arguments first =>
    obtain ⟨more, final, freeFirst, further⟩ := evaluated first
    exact ⟨more, final, .arguments freeFirst, further⟩
  | invoke first second =>
    obtain ⟨_, _, freeFirst, between⟩ := evaluated first
    obtain ⟨more, final, freeSecond, further⟩ :=
      between.ok unlimited (pours_each _ _) second
    exact ⟨more, final, .invoke freeFirst freeSecond, further⟩
  | object => exact ⟨_, _, .object, beside⟩
  | changedObject => exact ⟨_, _, .changedObject, beside⟩
  | fieldValue first =>
    obtain ⟨more, final, freeFirst, further⟩ := evaluated first
    exact ⟨more, final, .fieldValue freeFirst, further⟩
  | firstOfEach => exact ⟨_, _, .firstOfEach, beside⟩
  | restOfEach done =>
    obtain ⟨more, final, freeDone, further⟩ := evaluated done
    exact ⟨more, final, .restOfEach freeDone, further⟩
  | expression => exact ⟨_, _, .expression, beside⟩
  | print => exact ⟨_, _, .print, beside⟩
  | initializer => exact ⟨_, _, .initializer, beside⟩
  | block =>
    obtain ⟨written, room, rfl⟩ := beside
    exact ⟨_, _, .block, written, room, rfl⟩
  | condition => exact ⟨_, _, .condition, beside⟩
  | thenBranch tested holds =>
    obtain ⟨more, final, freeTested, further⟩ := evaluated tested
    exact ⟨more, final, .thenBranch freeTested holds, further⟩
  | elseBranch tested untrue =>
    obtain ⟨more, final, freeTested, further⟩ := evaluated tested
    exact ⟨more, final, .elseBranch freeTested untrue, further⟩
  | loop => exact ⟨_, _, .loop, beside⟩
  | returned => exact ⟨_, _, .returned, beside⟩
  | superclass => exact ⟨_, _, .superclass, beside⟩
  | firstOfSequence => exact ⟨_, _, .firstOfSequence, beside⟩
  | restOfSequence done =>
    obtain ⟨more, final, freeDone, further⟩ := beside.ok unlimited (pours_execute _ _) done
    exact ⟨more, final, .restOfSequence freeDone, further⟩
  | loopCondition => exact ⟨_, _, .loopCondition, beside⟩
  | loopBody tested holds =>
    obtain ⟨more, final, freeTested, further⟩ := evaluated tested
    exact ⟨more, final, .loopBody freeTested holds, further⟩
  | loopAgain tested holds done =>
    obtain ⟨_, _, freeTested, between⟩ := evaluated tested
    obtain ⟨more, final, freeDone, further⟩ := between.ok unlimited (pours_execute _ _) done
    exact ⟨more, final, .loopAgain freeTested holds freeDone, further⟩
  | call found matching shallow =>
    obtain ⟨written, room, rfl⟩ := beside
    exact ⟨_, _, .call found matching shallow, written, room, rfl⟩
  | callFunction => exact ⟨_, _, .callFunction, beside⟩
  | setUp =>
    obtain ⟨written, room, rfl⟩ := beside
    exact ⟨_, _, .setUp, written, room, rfl⟩
  | body =>
    obtain ⟨written, room, rfl⟩ := beside
    exact ⟨_, _, .body, written, room, rfl⟩

/-- A task gets to the same tasks whatever the output, as long as there is room. -/
theorem Task.Visits.beside
    {task inner : Task}
    {final : Machine}
    (visits : task.Visits limited inner final)
    (unlimited : origin.capacity = none)
    (beside : Machine.Beside origin sink bytes free limited) :
    ∃ more freeFinal, task.Visits free inner freeFinal ∧
      Machine.Beside origin sink more freeFinal final := by
  induction visits with
  | start => exact ⟨bytes, free, .start, beside⟩
  | further _ begins inductionHypothesis =>
    obtain ⟨_, between, visits, further⟩ := inductionHypothesis
    obtain ⟨more, freeFinal, freeBegins, final⟩ := begins.beside unlimited further
    exact ⟨more, freeFinal, visits.further freeBegins, final⟩

end Beside

/-- A machine with an unlimited output is about to write the line of a value, and a
sink has had room for everything before but has none for this line. -/
structure Machine.Overflows (origin sink : Output) (bytes : ByteArray) (value : Value)
    (machine : Machine) : Prop where
  written : machine.output = origin.keep bytes
  room : sink.HasRoom bytes.size
  noRoom : ¬ sink.HasRoom (bytes ++ machine.heap.line value).size

section Overflow

variable
  {origin sink : Output}
  {bytes : ByteArray}
  {free limited after : Machine}

/-- A line that cannot be written has no room. -/
theorem Machine.Beside.overflows
    {value : Value}
    {interruption : Interruption}
    (beside : Machine.Beside origin sink bytes free limited)
    (refused : Eval.printLine value limited = .error interruption after) :
    free.Overflows origin sink bytes value ∧ after = free.writingTo after.output := by
  obtain ⟨written, room, rfl⟩ := beside
  by_cases ample : (sink.keep bytes).HasRoom (free.heap.line value).size
  · have printed : Eval.printLine value (free.writingTo (sink.keep bytes)) = _ :=
      Eval.printLine_of_hasRoom ample
    rw [printed] at refused
    cases refused
  · have printed : Eval.printLine value (free.writingTo (sink.keep bytes)) = _ :=
      Eval.printLine_of_not_hasRoom ample
    rw [printed] at refused
    cases refused
    exact ⟨⟨written, room, fun isAmple => ample (Output.hasRoom_append.mp isAmple).2⟩, rfl⟩

/-- An evaluation that finds the output full has come to a print statement, which the
evaluation without a limit visits as well. -/
theorem Task.Fails.overflows
    {task : Task}
    {text : String}
    (fails : task.Fails limited (.outputFull text) after)
    (unlimited : origin.capacity = none)
    (beside : Machine.Beside origin sink bytes free limited) :
    ∃ steps value reached result writing more,
      task.Visits free (.execute (steps + 1) (.print value)) reached ∧
        Eval.evaluate steps value reached = .ok result writing ∧
        writing.Overflows origin sink more result ∧
        (writing.writingTo after.output).SameButPlace after := by
  obtain ⟨inner, final, other, left, visits, innerFails, itself⟩ := fails.exists_failsItself
  -- A failure may get a line on its way out, but it stays a failure.
  have noFailure : ∀ {line fault}, other ≠ .failure line fault := by
    rintro line fault rfl
    obtain ⟨_, _, comesOut⟩ := visits.failure innerFails
    exact nomatch (comesOut.unique fails).1
  cases itself.cause with
  | ownToken isAt =>
    obtain ⟨token, -, fault, isFailure, -⟩ := isAt
    exact absurd isFailure noFailure
  | native raised => exact absurd rfl noFailure
  | spentFuel =>
    obtain ⟨_, comesOut, -⟩ := visits.fails innerFails trivial
    exact nomatch (comesOut.unique fails).1
  | fullOutput evaluated refused =>
    obtain ⟨_, comesOut, same⟩ := visits.fails innerFails trivial
    obtain ⟨-, rfl⟩ := comesOut.unique fails
    obtain ⟨_, reached, freeVisits, further⟩ := visits.beside unlimited beside
    obtain ⟨more, writing, freeEvaluated, atPrint⟩ :=
      further.ok unlimited (pours_evaluate _ _) evaluated
    obtain ⟨overflows, isLeft⟩ := atPrint.overflows refused
    refine ⟨_, _, reached, _, writing, more, freeVisits, freeEvaluated, overflows, ?_⟩
    have sameOutput := congrArg Machine.output same
    rw [isLeft] at same
    rw [sameOutput]
    exact same

end Overflow
end TreeWalk
