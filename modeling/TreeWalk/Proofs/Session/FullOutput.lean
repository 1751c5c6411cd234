import TreeWalk.Proofs.Evaluation.Overflow
import TreeWalk.Proofs.Session.History
import TreeWalk.Proofs.Session.Interpreting
import TreeWalk.Proofs.Session.Scopes

/-!
# Runs with a full output

The output of a run may be a sink that keeps only so many bytes.  With room for
everything, a run comes to the same as with an unlimited output.  Without, the sink
keeps the first of the bytes, and the run is cut off at the first line that has no
room: at the print statement, or the printing of the value of an expression, that
writes this line in the run without a limit.  Whether flushing fails makes no
difference.
-/

namespace TreeWalk
namespace Session

/-- A session that writes to another output. -/
def writingTo (output : Output) (session : Session) : Session :=
  { session with machine := session.machine.writingTo output }

/-- On a machine with an unlimited output, interpreting a program writes some bytes.
With any other output that has room for them it ends in the same way.  Without room
for them it is interrupted, in a statement and on a machine that only the room
decides. -/
structure PoursOut (fuel : Nat) (echo : Bool) (program : List Stmt) (executed : Nat)
    (machine : Machine) (bytes : ByteArray) : Prop where
  written : (interpret fuel echo program executed machine).2.2.output = machine.output.keep bytes
  ample : ∀ output : Output, output.HasRoom bytes.size ->
    interpret fuel echo program executed (machine.writingTo output) =
      ((interpret fuel echo program executed machine).1,
        (interpret fuel echo program executed machine).2.1,
        (interpret fuel echo program executed machine).2.2.writingTo (output.keep bytes))
  scant : ∀ room < bytes.size, ∃ (count : Nat) (stopped : Machine), ∀ output : Output,
    output.room? = some room -> interpret fuel echo program executed (machine.writingTo output) =
      (count, some (.outputFull output.fullText), stopped.writingTo (output.keep bytes))

section Programs

variable {fuel : Nat} {echo : Bool} {program : List Stmt} {machine : Machine}

/-- A program that stops at its first statement has written that statement's bytes. -/
theorem PoursOut.of_error
    {first : Stmt}
    {rest : List Stmt}
    {interruption : Interruption}
    {after : Machine}
    {bytes : ByteArray}
    (poured : Poured (executeTopLevel fuel echo first) machine bytes)
    (stopped : executeTopLevel fuel echo first machine = .error interruption after)
    (executed : Nat) :
    PoursOut fuel echo (first :: rest) executed machine bytes := by
  have left := poured.written
  rw [Eval.left, stopped] at left
  refine ⟨?_, fun output ample => ?_, fun room exceeded => ?_⟩
  · rw [interpret_of_error stopped]
    exact left
  · have redirected := poured.ample output ample
    rw [stopped, Eval.redirect] at redirected
    rw [interpret_of_error stopped, interpret_of_error redirected]
  · obtain ⟨cut, stops⟩ := poured.scant room exceeded
    exact ⟨executed, cut, fun output limited => interpret_of_error (stops output limited) executed⟩

/-- Behind its first statement, a program writes the bytes of the rest. -/
theorem PoursOut.of_ok
    {first : Stmt}
    {rest : List Stmt}
    {after : Machine}
    {one other : ByteArray}
    {executed : Nat}
    (poured : Poured (executeTopLevel fuel echo first) machine one)
    (done : executeTopLevel fuel echo first machine = .ok () after)
    (further : PoursOut fuel echo rest (executed + 1) after other) :
    PoursOut fuel echo (first :: rest) executed machine (one ++ other) := by
  have left := poured.written
  rw [Eval.left, done] at left
  have goesOn : ∀ output : Output, output.HasRoom one.size ->
      interpret fuel echo (first :: rest) executed (machine.writingTo output) =
        interpret fuel echo rest (executed + 1) (after.writingTo (output.keep one)) := by
    intro output ample
    have redirected := poured.ample output ample
    rw [done, Eval.redirect] at redirected
    exact interpret_of_ok redirected executed
  refine ⟨?_, fun output ample => ?_, fun room exceeded => ?_⟩
  · rw [interpret_of_ok done, further.written, left, Output.keep_keep]
  · obtain ⟨ampleFirst, ampleRest⟩ := Output.hasRoom_append.mp ample
    rw [goesOn output ampleFirst, further.ample _ ampleRest, interpret_of_ok done, Output.keep_keep]
  · rw [ByteArray.size_append] at exceeded
    by_cases early : room < one.size
    · obtain ⟨cut, stops⟩ := poured.scant room early
      refine ⟨executed, cut, fun output limited => ?_⟩
      have isFull : ¬ output.HasRoom one.size := by
        rw [Output.hasRoom_iff limited]
        omega
      rw [interpret_of_error (stops output limited), Output.keep_append_of_not_hasRoom isFull]
    · obtain ⟨count, cut, stops⟩ := further.scant (room - one.size) (by omega)
      refine ⟨count, cut, fun output limited => ?_⟩
      have ample : output.HasRoom one.size := by
        rw [Output.hasRoom_iff limited]
        omega
      rw [goesOn output ample, stops _ (by simp [Output.room?_keep, limited]), Output.keep_keep,
        Output.fullText_keep]

/-- What interpreting a program does depends on the output only by the room that there
is. -/
theorem exists_poursOut
    (unlimited : machine.output.capacity = none)
    (executed : Nat) :
    ∃ bytes, PoursOut fuel echo program executed machine bytes := by
  induction program generalizing machine executed with
  | nil =>
    refine ⟨.empty, ?_, fun output _ => ?_, fun room exceeded => ?_⟩
    · simp [interpret]
    · simp [interpret]
    · exact absurd exceeded (Nat.not_lt_zero room)
  | cons first rest inductionHypothesis =>
    obtain ⟨one, poured⟩ := pours_executeTopLevel fuel echo first machine unlimited
    cases outcome : executeTopLevel fuel echo first machine with
    | error interruption after => exact ⟨one, .of_error poured outcome executed⟩
    | ok result after =>
      have stillUnlimited : after.output.capacity = none := by
        have written := poured.written
        rw [Eval.left, outcome] at written
        simp [written, unlimited]
      obtain ⟨other, further⟩ := inductionHypothesis stillUnlimited (executed + 1)
      exact ⟨one ++ other, .of_ok poured outcome further⟩

end Programs

/-- Interpreting a program comes to write the line of a value in the statement with an
index: at a print statement, or because the value of the statement is printed. -/
inductive Writes (fuel : Nat) (echo : Bool) (program : List Stmt) (machine : Machine)
    (index : Nat) (value : Value) (writing : Machine) : Prop
  | print
      {before rest : List Stmt}
      {statement : Stmt}
      {middle reached : Machine}
      {steps : Nat}
      {printed : Expr}
      (isProgram : program = before ++ statement :: rest)
      (isIndex : before.length = index)
      (executed : interpret fuel echo before 0 machine = (index, none, middle))
      (visits : (topLevelTask fuel statement).Visits middle
        (.execute (steps + 1) (.print printed)) reached)
      (evaluated : Eval.evaluate steps printed reached = .ok value writing)
  | echoed
      {before rest : List Stmt}
      {printed : Expr}
      {middle : Machine}
      (echoes : echo = true)
      (isProgram : program = before ++ .expression printed :: rest)
      (isIndex : before.length = index)
      (executed : interpret fuel echo before 0 machine = (index, none, middle))
      (evaluated : Eval.evaluate fuel printed middle = .ok value writing)

section Overflow

variable
  {fuel executed count : Nat}
  {echo : Bool}
  {program : List Stmt}
  {origin sink : Output}
  {bytes : ByteArray}
  {free limited final : Machine}

/-- Statements that have been executed with a limited output are executed without a
limit as well. -/
theorem interpret_beside
    (completed : interpret fuel echo program executed limited = (count, none, final))
    (unlimited : origin.capacity = none)
    (beside : Machine.Beside origin sink bytes free limited) :
    ∃ more freeFinal, interpret fuel echo program executed free = (count, none, freeFinal) ∧
      Machine.Beside origin sink more freeFinal final := by
  induction program generalizing executed free limited bytes with
  | nil =>
    cases completed
    exact ⟨bytes, free, rfl, beside⟩
  | cons first rest inductionHypothesis =>
    cases outcome : executeTopLevel fuel echo first limited with
    | error interruption after =>
      rw [interpret_of_error outcome] at completed
      cases completed
    | ok result after =>
      rw [interpret_of_ok outcome] at completed
      obtain ⟨_, freeAfter, freeOutcome, further⟩ :=
        beside.ok unlimited (pours_executeTopLevel fuel echo first) outcome
      rw [interpret_of_ok freeOutcome]
      exact inductionHypothesis completed further

/-- A program that finds the output full has come to a line that the program without a
limit writes as well. -/
theorem writes_of_full
    {text : String}
    (ended : interpret fuel echo program 0 limited = (count, some (.outputFull text), final))
    (unlimited : origin.capacity = none)
    (beside : Machine.Beside origin sink bytes free limited) :
    ∃ value writing more, Writes fuel echo program free count value writing ∧
      writing.Overflows origin sink more value ∧
      (writing.writingTo final.output).SameButPlace final := by
  obtain ⟨isProgram, isIndex, completed, stopped⟩ := stops_of_interpret ended
  obtain ⟨_, freeMiddle, freeCompleted, further⟩ := interpret_beside completed unlimited beside
  rcases executeTopLevel_eq_error stopped with
    fails | ⟨printed, value, after, echoes, rfl, evaluated, refused⟩
  · obtain ⟨steps, printed, reached, value, writing, more, visits, evaluated, overflows, same⟩ :=
      fails.overflows unlimited further
    exact ⟨value, writing, more, .print isProgram isIndex freeCompleted visits evaluated, overflows,
      same⟩
  · obtain ⟨more, writing, freeEvaluated, atPrint⟩ :=
      further.ok unlimited (pours_evaluate fuel printed) evaluated
    obtain ⟨overflows, isLeft⟩ := atPrint.overflows refused
    refine ⟨value, writing, more, .echoed echoes isProgram isIndex freeCompleted freeEvaluated,
      overflows, ?_⟩
    rw [← isLeft]
    exact .refl final

end Overflow

/-- A run has been cut off for want of room in a sink.  It reports the error of the sink
and nothing else.  It has been left at the line of a value which the run without a limit writes
when no more bytes have been written than there is room for, and more than that with
the line. -/
structure CutOff
    (session : Session)
    (fuel : Nat)
    (source : String)
    (sink : Output)
    (room : Nat)
    (result : RunResult)
    (after : Session) : Prop where
  diagnostics : result.diagnostics = [⟨0, .lexical, sink.fullText⟩]
  notRejected : result.rejected = false
  notFailed : result.failed = false
  line : ∃ value writing bytes final,
    Writes fuel session.echo (session.program source) (session.ready source) result.executed value
      writing ∧
    writing.output = session.machine.output.keep bytes ∧ bytes.size ≤ room ∧
    room < bytes.size + (writing.heap.line value).size ∧
    (writing.writingTo after.machine.output).SameButPlace final ∧
    after = ⟨final.forgetDistances (session.resolution source).topLevel.toList,
      session.nextIdAfter source, session.echo⟩

section Runs

variable
  {session : Session}
  {source : String}
  {fuel : Nat}
  {bytes : ByteArray}

/-- With room for everything, a run comes to the same. -/
theorem run_of_ample
    {sink : Output}
    {result : RunResult}
    {after : Session}
    (pours : PoursOut fuel session.echo (session.program source) 0 (session.ready source) bytes)
    (accepts : session.staticErrors source = [])
    (runs : session.run fuel source = some (result, after))
    (ample : sink.HasRoom bytes.size) :
    (session.writingTo sink).run fuel source =
      some (result, after.writingTo (sink.keep bytes)) := by
  have acceptsToo : (session.writingTo sink).staticErrors source = [] := accepts
  have redirected : (session.writingTo sink).interpreted fuel source = _ := pours.ample sink ample
  rw [run_eq_finished accepts, Option.map_eq_some_iff] at runs
  obtain ⟨_, isResult, isFinished⟩ := runs
  cases isFinished
  rw [run_eq_finished acceptsToo, finished, redirected, Option.map_eq_some_iff]
  exact ⟨result, isResult, rfl⟩

/-- Without room for everything, a run is cut off.  Only the room decides where. -/
theorem run_of_scant
    {room : Nat}
    (pours : PoursOut fuel session.echo (session.program source) 0 (session.ready source) bytes)
    (unlimited : session.machine.output.capacity = none)
    (accepts : session.staticErrors source = [])
    (exceeded : room < bytes.size) :
    ∃ (count : Nat) (stopped : Session), ∀ sink : Output, sink.room? = some room ->
      (session.writingTo sink).run fuel source =
        some (⟨count, [.output sink.fullText], false⟩, stopped.writingTo (sink.keep bytes)) ∧
      session.CutOff fuel source sink room ⟨count, [.output sink.fullText], false⟩
        (stopped.writingTo (sink.keep bytes)) := by
  obtain ⟨count, final, stops⟩ := pours.scant room exceeded
  refine ⟨count, ⟨final.forgetDistances (session.resolution source).topLevel.toList,
    session.nextIdAfter source, session.echo⟩, fun sink limited => ?_⟩
  have acceptsToo : (session.writingTo sink).staticErrors source = [] := accepts
  have ended : (session.writingTo sink).interpreted fuel source = _ := stops sink limited
  obtain ⟨value, writing, earlier, writes, overflows, same⟩ :=
    writes_of_full ended unlimited (Machine.Beside.start (session.ready source) sink)
  have noRoom := overflows.noRoom
  rw [Output.hasRoom_iff limited, ByteArray.size_append] at noRoom
  refine ⟨?_, rfl, rfl, rfl, value, writing, earlier, _, writes, overflows.written,
    (Output.hasRoom_iff limited).mp overflows.room, by omega, same, rfl⟩
  rw [run_eq_finished acceptsToo, finished, ended]
  rfl

end Runs

/-- A full output only cuts off.  Let a run with an unlimited output write some bytes,
and take a sink with room for so many bytes instead.  The sink keeps the first of the
bytes, as many as there is room for.  If there is room for all of them, the result and
the session are the same but for the output.  If not, the run is cut off at the line
with the first byte that has no room, and says so.  In either case a flush that fails
changes nothing. -/
theorem full_outputs_only_cut_off
    {session after : Session}
    {source : String}
    {fuel : Nat}
    {result : RunResult}
    (unlimited : session.machine.output.capacity = none)
    (accepts : session.staticErrors source = [])
    (runs : session.run fuel source = some (result, after)) :
    ∃ bytes, after.machine.output.written = session.machine.output.written ++ bytes ∧
      (∀ sink : Output, sink.capacity = none ->
        (session.writingTo sink).run fuel source =
          some (result, after.writingTo (sink.keep bytes))) ∧
      ∀ (sink : Output) (room : Nat), sink.room? = some room ->
        ∃ cut stopped, (session.writingTo sink).run fuel source = some (cut, stopped) ∧
          stopped.machine.output.written =
            sink.written ++ bytes.extract 0 (min room bytes.size) ∧
          (bytes.size ≤ room -> cut = result ∧
            stopped = after.writingTo stopped.machine.output) ∧
          (room < bytes.size -> session.CutOff fuel source sink room cut stopped) ∧
          ∀ flushFails, (session.writingTo { sink with flushFails := flushFails }).run fuel source =
            some (cut, stopped.writingTo
              { stopped.machine.output with flushFails := flushFails }) := by
  have readyUnlimited : (session.ready source).output.capacity = none := unlimited
  obtain ⟨bytes, pours⟩ : ∃ bytes, PoursOut fuel session.echo (session.program source) 0
      (session.ready source) bytes := exists_poursOut readyUnlimited 0
  have written : after.machine.output = session.machine.output.keep bytes := by
    rw [eq_of_run accepts runs]
    exact pours.written
  refine ⟨bytes, ?_, fun sink noLimit => ?_, fun sink room limited => ?_⟩
  · rw [written, Output.written_keep_of_unlimited _ _ unlimited]
  · exact run_of_ample pours accepts runs (Output.hasRoom_of_unlimited noLimit _)
  · -- Whether a flush fails has no part in how much room there is.
    have limitedToo : ∀ flushFails,
        Output.room? { sink with flushFails := flushFails } = some room :=
      fun _ => limited
    have kept := Output.written_keep_of_limited sink bytes limited
    by_cases ample : bytes.size ≤ room
    · refine ⟨result, after.writingTo (sink.keep bytes), ?_, kept, fun _ => ⟨rfl, rfl⟩,
        fun exceeded => absurd exceeded (Nat.not_lt.mpr ample), fun flushFails => ?_⟩
      · exact run_of_ample pours accepts runs ((Output.hasRoom_iff limited).mpr ample)
      · have ampleToo := (Output.hasRoom_iff (limitedToo flushFails)).mpr ample
        rw [run_of_ample pours accepts runs ampleToo, Output.keep_withFlush]
        rfl
    · obtain ⟨count, stopped, stops⟩ :=
        run_of_scant pours unlimited accepts (Nat.lt_of_not_le ample)
      refine ⟨_, stopped.writingTo (sink.keep bytes), (stops sink limited).1, kept,
        fun isAmple => absurd isAmple ample, fun _ => (stops sink limited).2, fun flushFails => ?_⟩
      rw [(stops _ (limitedToo flushFails)).1, Output.keep_withFlush]
      rfl

/-- A text that writes three lines, two of them in a function that is called as the
second statement. -/
def threeLinesText : String :=
  "fn f() \x7b print \"ab\"; print \"cd\"; \x7d f(); print \"ef\";"

/-- A sink with room for four bytes, which cannot be flushed. -/
def narrowSink : Output :=
  { capacity := some 4, fullText := "no space left", flushFails := true }

/-- A sink of four bytes cuts off the second line of a call. -/
theorem full_outputs_only_cut_off_midLine :
    idle.machine.output.capacity = none ∧ idle.staticErrors threeLinesText = [] ∧
      ∃ cut stopped, (idle.writingTo narrowSink).run 20 threeLinesText = some (cut, stopped) ∧
        stopped.machine.output.written = "ab\nc".toUTF8 ∧ cut.executed = 1 ∧
        idle.CutOff 20 threeLinesText narrowSink 4 cut stopped := by
  have accepts : idle.staticErrors threeLinesText = [] := List.isEmpty_iff.mp (by decide +kernel)
  have prints : (idle.run 20 threeLinesText).any
      (·.2.machine.output.written.data == "ab\ncd\nef\n".toUTF8.data) = true := by
    decide +kernel
  have counts : ((idle.writingTo narrowSink).run 20 threeLinesText).any
      (·.1.executed == 1) = true := by
    decide +kernel
  obtain ⟨⟨result, after⟩, runs, isWritten⟩ := (Option.any_eq_true _ _).mp prints
  obtain ⟨bytes, written, -, limits⟩ := full_outputs_only_cut_off rfl accepts runs
  obtain ⟨cut, stopped, stops, kept, -, cutOff, -⟩ := limits narrowSink 4 rfl
  have areBytes : bytes = "ab\ncd\nef\n".toUTF8 := by
    rw [ByteArray.ext (eq_of_beq isWritten).symm, written]
    exact ByteArray.empty_append.symm
  rw [stops, Option.any_some, beq_iff_eq] at counts
  subst areBytes
  exact ⟨rfl, accepts, cut, stopped, stops, kept.trans (by decide +kernel), counts,
    cutOff (by decide +kernel)⟩

end Session
end TreeWalk
