import TreeWalk.Proofs.Evaluation.Sparing
import TreeWalk.Proofs.ForLoop

/-!
# Executing loops with a `for` header

A loop with a `for` header is executed together with the statement that the parser makes
of it.  If there is an increment, that statement has a spare scope in each round, around
the body and the increment.
-/

namespace TreeWalk

namespace ForLoop

/-- The references of what is repeated mean the same in both runs.  There is a spare
scope around the body and the increment, if there is one. -/
def RoundFits (setting : Setting) (number : Nat -> Nat) (loop : ForLoop) : Prop :=
  match loop.increment with
  | none => loop.body.Fits setting number .none
  | some increment =>
    loop.body.Fits setting number (.beyond 0) ∧ increment.Fits setting number (.beyond 0)

/-- The references of a loop mean the same in both runs. -/
structure Fits (setting : Setting) (number : Nat -> Nat) (loop : ForLoop) : Prop where
  initializer : ∀ first ∈ loop.initializer, first.Fits setting number .none
  condition : Expr.OptionFits setting number .none loop.condition
  round : loop.RoundFits setting number

/-- The names of the condition have the same distances. -/
theorem Fits.condition_distances
    {setting : Setting}
    {number : Nat -> Nat}
    {loop : ForLoop}
    (fits : loop.Fits setting number)
    {id : Nat}
    (member : id ∈ Expr.optionIds loop.condition) :
    setting.before[id]? = setting.after[number id]? := by
  have conditionFits := fits.condition
  cases isCondition : loop.condition with
  | none => simp [isCondition, Expr.optionIds] at member
  | some condition =>
    rw [isCondition] at conditionFits member
    exact (Expr.Fits.files conditionFits id member).same

/-- The names of the increment lie one scope further in. -/
theorem Fits.increment_distances
    {setting : Setting}
    {number : Nat -> Nat}
    {loop : ForLoop}
    (fits : loop.Fits setting number)
    {id : Nat}
    (member : id ∈ Expr.optionIds loop.increment) :
    setting.before[id]? = setting.after[number id]?.map (· + 1) := by
  have roundFits := fits.round
  unfold RoundFits at roundFits
  cases isIncrement : loop.increment with
  | none => simp [isIncrement, Expr.optionIds] at member
  | some increment =>
    rw [isIncrement] at roundFits member
    exact (Expr.Fits.files roundFits.2 id member).further

end ForLoop

section Loops

variable
  {setting : Setting}
  {pairs : ScopePairs}
  {number : Nat -> Nat}
  {machine other : Machine}
  {loop : ForLoop}

/-- Evaluate in a new scope on the first machine only. -/
theorem together_spareScope
    {α : Type}
    {evaluation otherEvaluation : Eval α}
    (abreast : Abreast setting.lockstep pairs Gap.none machine other)
    (inside : ∀ entered, Abreast setting.lockstep pairs (Gap.beyond 0) entered other ->
      Together setting.lockstep pairs evaluation otherEvaluation entered other equalResults) :
    Together setting.lockstep pairs
      (do
        let current := (← get).scope
        let scope ← Eval.onHeap (·.newScope (some current) .empty)
        Eval.within scope evaluation)
      otherEvaluation machine other equalResults := by
  have same := abreast.same
  generalize isMade : machine.heap.newScope (some machine.scope) .empty = made
  have grows : Heap.Grows machine.heap made.2 := by
    rw [← isMade]
    exact Heap.grows_newScope _ _ _
  have heaps : made.2.Paired setting.pairing pairs other.heap := by
    rw [← isMade]
    exact same.heap.advance (Heap.ScopesMatch.spareScope same.heap.scopes _)
      (Heap.grows_newScope _ _ _) (.refl _) (List.Subset.refl pairs) ⟨rfl, rfl⟩ ⟨rfl, rfl⟩
      ⟨rfl, rfl⟩ same.heap.instances
  have aligned : Heap.Aligned setting pairs made.2 other.heap made.1 other.scope (.beyond 0) := by
    rw [← isMade]
    exact Heap.aligned_spareScope abreast.aligned
  have ended := inside { machine with heap := made.2, scope := made.1 }
    ⟨⟨heaps, same.globals, same.distances, same.callDepth, same.clock, same.output⟩, aligned⟩
  -- The spare scope is left again, and what happened inside of it happened on both sides.
  have back : ∀ {later : ScopePairs} {after otherAfter : Machine},
      GoesOn setting.lockstep pairs { machine with heap := made.2, scope := made.1 } other later
        after otherAfter ->
      GoesOn setting.lockstep pairs machine other later { after with scope := machine.scope }
        otherAfter := by
    rintro later after otherAfter ⟨same, extended, further, otherGrows, -, otherScope, written⟩
    exact ⟨⟨same.heap, same.globals, same.distances, same.callDepth, same.clock, same.output⟩,
      extended, grows.trans further, otherGrows, rfl, otherScope, written⟩
  have entered : (do
        let current := (← get).scope
        let scope ← Eval.onHeap (·.newScope (some current) .empty)
        Eval.within scope evaluation : Eval α) machine =
      Eval.within made.1 evaluation { machine with heap := made.2 } := by
    rw [← isMade]
    rfl
  unfold Together at ended ⊢
  rw [entered, Eval.within]
  cases outcome : evaluation { machine with heap := made.2, scope := made.1 } <;>
    cases otherOutcome : otherEvaluation other <;> rw [outcome, otherOutcome] at ended
  case ok.ok =>
    obtain ⟨later, goesOn, equal⟩ := ended
    exact ⟨later, back goesOn, equal⟩
  case error.error =>
    obtain ⟨interruptions, later, goesOn⟩ := ended
    exact ⟨interruptions, later, back goesOn⟩
  all_goals exact ended.elim

/-- The increment is evaluated as the last statement of the spare scope. -/
theorem together_increment
    {gap : Gap}
    {increment : Expr}
    (fuel : Nat)
    (fits : increment.Fits setting number gap)
    (abreast : Abreast setting.lockstep pairs gap machine other) :
    Together setting.lockstep pairs (Eval.sequence (Eval.execute fuel) [.expression increment])
      (do
        let _ ← Eval.evaluate (fuel - 1) (increment.renumber number)
        return .normal)
      machine other equalResults := by
  rw [Eval.sequence]
  cases fuel with
  | zero =>
    rw [Eval.execute, Eval.evaluate]
    exact together_throw abreast.same _
  | succ fuel =>
    rw [Eval.execute, bind_assoc, Nat.add_sub_cancel]
    refine ((runsTogether setting.lockstep fuel).1 ⟨number, rfl, fits⟩ abreast).bind ?_
    intro _ _ later after otherAfter goesOn _
    exact together_pure goesOn.same rfl

/-- One round of the loop. -/
theorem together_round
    (fuel : Nat)
    (fits : loop.RoundFits setting number)
    (abreast : Abreast setting.lockstep pairs Gap.none machine other) :
    Together setting.lockstep pairs (Eval.execute fuel loop.repeated)
      ((loop.renumber number).round fuel) machine other equalResults := by
  obtain ⟨initializer, condition, increment, body⟩ := loop
  cases increment with
  | none => exact (runsTogether setting.lockstep fuel).2.1 ⟨number, rfl, fits⟩ abreast
  | some increment =>
    obtain ⟨bodyFits, incrementFits⟩ := fits
    unfold ForLoop.repeated ForLoop.round
    dsimp only [ForLoop.renumber, Expr.optionRenumber]
    cases fuel with
    | zero =>
      rw [Eval.execute, Eval.execute]
      exact together_throw abreast.same _
    | succ fuel =>
      rw [Eval.execute, Nat.add_sub_cancel]
      refine together_spareScope abreast fun entered inside => ?_
      rw [Eval.sequence]
      refine ((runsTogether setting.lockstep fuel).2.1 ⟨number, rfl, bodyFits⟩ inside).bind ?_
      rintro _ flow later after otherAfter goesOn rfl
      cases flow with
      | normal => exact together_increment fuel incrementFits (inside.goOn goesOn)
      | returned value => exact together_pure goesOn.same rfl

/-- Whether to go on. -/
theorem together_test
    (fuel : Nat)
    (fits : Expr.OptionFits setting number .none loop.condition)
    (abreast : Abreast setting.lockstep pairs Gap.none machine other) :
    Together setting.lockstep pairs (Value.isTruthy <$> Eval.evaluate (fuel + 1) loop.tested)
      ((loop.renumber number).test (fuel + 1)) machine other equalResults := by
  obtain ⟨initializer, condition, increment, body⟩ := loop
  cases condition with
  | none =>
    unfold ForLoop.tested
    rw [Option.getD_none, Eval.evaluate]
    exact together_pure abreast.same rfl
  | some condition =>
    rw [map_eq_pure_bind]
    refine ((runsTogether setting.lockstep (fuel + 1)).1 ⟨number, rfl, fits⟩ abreast).bind ?_
    rintro _ value later after otherAfter goesOn rfl
    exact together_pure goesOn.same rfl

/-- A single unit of fuel does not suffice for a round. -/
theorem ForLoop.repeats_one (loop : ForLoop) : loop.repeats 1 = throw .outOfFuel := by
  obtain ⟨initializer, condition, increment, body⟩ := loop
  rw [repeats]
  unfold test round
  cases condition with
  | none =>
    cases increment with
    | none =>
      dsimp only
      rw [Eval.execute]
      rfl
    | some increment =>
      dsimp only
      rw [Eval.execute]
      rfl
  | some condition =>
    dsimp only
    rw [Eval.evaluate]
    rfl

/-- The loop of the desugared text and the direct one, from machines abreast: the same
rounds with equal results. -/
theorem together_repeats
    (fuel : Nat)
    (conditionFits : Expr.OptionFits setting number .none loop.condition)
    (fits : loop.RoundFits setting number)
    (abreast : Abreast setting.lockstep pairs Gap.none machine other) :
    Together setting.lockstep pairs (Eval.repeatWhile fuel loop.tested loop.repeated)
      ((loop.renumber number).repeats fuel) machine other equalResults := by
  -- A condition that is missing costs fuel in the statement only, but without any fuel
  -- left for it there is none for the round either.
  induction fuel generalizing pairs machine other with
  | zero =>
    rw [Eval.repeatWhile, ForLoop.repeats]
    exact together_throw abreast.same _
  | succ fuel inductionHypothesis =>
    cases fuel with
    | zero =>
      rw [ForLoop.repeats_one, Eval.repeatWhile, Eval.evaluate]
      exact together_throw abreast.same _
    | succ fuel =>
      rw [Eval.repeatWhile_succ, ForLoop.repeats]
      refine (together_test fuel conditionFits abreast).bind ?_
      rintro _ holds later after otherAfter goesOn rfl
      have reached := abreast.goOn goesOn
      split
      · refine (together_round (fuel + 1) fits reached).bind ?_
        rintro _ flow last ending otherEnding further rfl
        cases flow with
        | normal => exact inductionHypothesis (reached.goOn further)
        | returned value => exact together_pure further.same rfl
      · exact together_pure goesOn.same rfl

/-- Statements that consist of a loop alone. -/
theorem together_lastRepeats
    (fuel : Nat)
    (conditionFits : Expr.OptionFits setting number .none loop.condition)
    (fits : loop.RoundFits setting number)
    (abreast : Abreast setting.lockstep pairs Gap.none machine other) :
    Together setting.lockstep pairs
      (Eval.sequence (Eval.execute fuel) [.loop loop.tested loop.repeated])
      ((loop.renumber number).repeats (fuel - 1)) machine other equalResults := by
  have whole : (loop.renumber number).repeats (fuel - 1) =
      (loop.renumber number).repeats (fuel - 1) >>= pure := (bind_pure _).symm
  have looped : Together setting.lockstep pairs
      (Eval.execute fuel (.loop loop.tested loop.repeated))
      ((loop.renumber number).repeats (fuel - 1)) machine other equalResults := by
    cases fuel with
    | zero =>
      rw [Eval.execute, ForLoop.repeats]
      exact together_throw abreast.same _
    | succ fuel =>
      rw [Eval.execute]
      exact together_repeats fuel conditionFits fits abreast
  rw [whole, Eval.sequence]
  refine looped.bind ?_
  rintro _ flow later after otherAfter goesOn rfl
  cases flow with
  | normal => exact together_pure goesOn.same rfl
  | returned value => exact together_pure goesOn.same rfl

/-- A loop is executed together with the statement that is made of it. -/
theorem together_forLoop
    (fuel : Nat)
    (fits : loop.Fits setting number)
    (abreast : Abreast setting.lockstep pairs Gap.none machine other) :
    Together setting.lockstep pairs (Eval.execute fuel loop.desugared)
      ((loop.renumber number).execute fuel) machine other equalResults := by
  obtain ⟨initializerFits, conditionFits, roundFits⟩ := fits
  cases fuel with
  | zero =>
    rw [Eval.execute, ForLoop.execute]
    exact together_throw abreast.same _
  | succ fuel =>
    rw [ForLoop.desugared_eq]
    unfold ForLoop.execute
    cases isInitializer : loop.initializer with
    | none =>
      have otherwise : (loop.renumber number).initializer = none := by
        rw [ForLoop.renumber, isInitializer]
        rfl
      rw [otherwise, Eval.execute]
      exact together_repeats fuel conditionFits roundFits abreast
    | some first =>
      have otherFirst : (loop.renumber number).initializer = some (first.renumber number) := by
        rw [ForLoop.renumber, isInitializer]
        rfl
      rw [otherFirst]
      dsimp only
      rw [Eval.execute]
      refine together_get ((together_newFrame abreast.same abreast.aligned .empty).bind ?_)
      intro scope otherScope later after otherAfter goesOn aligned
      have inside := goesOn.same.enter aligned
      refine together_within ?_
      rw [Eval.sequence]
      refine ((runsTogether setting.lockstep fuel).2.1
        ⟨number, rfl, initializerFits first isInitializer⟩ inside).bind ?_
      rintro _ flow last ending otherEnding further rfl
      cases flow with
      | normal => exact together_lastRepeats fuel conditionFits roundFits (inside.goOn further)
      | returned value => exact together_pure further.same rfl

end Loops

end TreeWalk
