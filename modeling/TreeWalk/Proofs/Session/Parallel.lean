import TreeWalk.Proofs.Evaluation.Respelled
import TreeWalk.Session

/-!
# Programs in parallel

Programs whose statements belong together are interpreted in lockstep: as many statements
are executed, they are interrupted for the same reason, if at all, and the machines are
paired again.  So it is for a program and the program spelled anew, on machines that are
alike.
-/

namespace TreeWalk
namespace Session

section Lockstep

variable
  {lockstep : Lockstep}
  {world : lockstep.World}
  {position : lockstep.Position}
  {machine other : Machine}

/-- Top-level statements that belong together are executed together. -/
theorem together_executeTopLevel
    {step otherStep : Stmt}
    (fuel : Nat)
    (echo : Bool)
    (paired : lockstep.step position step otherStep)
    (abreast : Abreast lockstep world position machine other) :
    Together lockstep world (executeTopLevel fuel echo step)
      (executeTopLevel fuel echo otherStep) machine other equalResults := by
  obtain ⟨evaluates, executes, -⟩ := runsTogether lockstep fuel
  have executed : Together lockstep world (do let _ ← Eval.execute fuel step)
      (do let _ ← Eval.execute fuel otherStep) machine other equalResults := by
    refine (executes paired abreast).bind ?_
    intro _ _ later after otherAfter goesOn _
    exact together_pure goesOn.same rfl
  cases lockstep.step_shape paired
  case expression values =>
    refine (evaluates values abreast).bind ?_
    rintro _ result later after otherAfter goesOn rfl
    cases echo with
    | false => exact together_pure goesOn.same rfl
    | true => exact together_printLine goesOn.same result
  all_goals exact executed

/-- Programs whose statements belong together are interpreted in lockstep. -/
theorem interpret_together
    {program otherProgram : List Stmt}
    (fuel : Nat)
    (echo : Bool)
    (executed : Nat)
    (paired : List.Forall₂ (lockstep.step position) program otherProgram)
    (abreast : Abreast lockstep world position machine other) :
    let ended := interpret fuel echo program executed machine
    let otherEnded := interpret fuel echo otherProgram executed other
    otherEnded.1 = ended.1 ∧
      Option.Rel (Interruption.Paired lockstep.toPairing) ended.2.1 otherEnded.2.1 ∧
      ∃ later, GoesOn lockstep world machine other later ended.2.2 otherEnded.2.2 := by
  dsimp only
  induction paired generalizing world machine other executed with
  | nil =>
    rw [interpret, interpret]
    exact ⟨rfl, .none, world, .refl abreast.same⟩
  | @cons first otherFirst rest otherRest steps _ inductionHypothesis =>
    have together := together_executeTopLevel fuel echo steps abreast
    rw [interpret, interpret]
    unfold Together at together
    cases outcome : executeTopLevel fuel echo first machine <;>
      cases otherOutcome : executeTopLevel fuel echo otherFirst other <;>
      rw [outcome, otherOutcome] at together
    case ok.ok =>
      obtain ⟨later, goesOn, -⟩ := together
      obtain ⟨sameCount, interruptions, last, further⟩ :=
        inductionHypothesis (executed + 1) (abreast.goOn goesOn)
      exact ⟨sameCount, interruptions, last, goesOn.trans further⟩
    case error.error =>
      obtain ⟨interruptions, later, goesOn⟩ := together
      exact ⟨rfl, .some interruptions, later, goesOn⟩
    all_goals exact together.elim

end Lockstep

section Alike

variable
  {likeness : Likeness}
  {marks : List Bool}
  {machine other : Machine}
  {spelling : Spelling}

/-- If no line is moved, then two runs are interrupted in the same way. -/
theorem eq_of_exact
    {interruption otherInterruption : Option Interruption}
    (exact : likeness.Exact)
    (related : Option.Rel (Interruption.Alike likeness) interruption otherInterruption) :
    otherInterruption = interruption := by
  cases related with
  | none => rfl
  | some alike => rw [alike.2 exact]

/-- Interpreting a program that is spelled anew. -/
theorem interpret_alike
    {program : List Stmt}
    (choice : Choice)
    (fuel : Nat)
    (echo : Bool)
    (executed : Nat)
    (wellFormed : Stmt.AllWellFormed Token.IsName program)
    (admits : likeness.Admits spelling (Stmt.listIds program) (Stmt.listFunctions program))
    (alike : machine.Alike likeness marks other)
    (marked : machine.heap.Marked machine.globals marks machine.scope []) :
    let ended := interpret fuel echo program executed machine
    let otherEnded :=
      interpret fuel echo (Stmt.listRespell spelling choice [] program) executed other
    otherEnded.1 = ended.1 ∧
      Option.Rel (Interruption.Alike likeness) ended.2.1 otherEnded.2.1 ∧
      (∃ later, ended.2.2.Alike likeness later otherEnded.2.2) ∧
      ∃ bytes, ended.2.2.output.written = machine.output.written ++ bytes := by
  have outside : ([] : List Bool).headD false = true ->
      program.all (·.keepsNames spelling) = true := fun chosen => Bool.noConfusion chosen
  obtain ⟨sameCount, interruptions, later, goesOn⟩ :=
    interpret_together fuel echo executed (Stmt.paired_listRespell wellFormed admits outside)
      (alike.abreast marked)
  exact ⟨sameCount, rel_imp interruptions fun _ _ paired => paired.alike,
    ⟨later, goesOn.alike alike.scope⟩, goesOn.written⟩

end Alike

end Session
end TreeWalk
