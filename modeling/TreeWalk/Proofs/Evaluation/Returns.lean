import TreeWalk.Proofs.Evaluation.Failures
import TreeWalk.Proofs.Resolution.Site

/-!
# Statements outside of functions never return

Name resolution reports a return statement that is not inside of a function, however
deep it is nested in blocks, branches and loops.  So a statement outside of functions
at which nothing is reported does not end by returning.  This holds on every machine.
The proof is by induction on the fuel, along the sites of the walk.
-/

namespace TreeWalk

/-- An evaluation never ends by returning a value. -/
def NeverReturns (evaluation : Eval Flow) : Prop :=
  ∀ (machine : Machine) (value : Value) (after : Machine),
    evaluation machine ≠ .ok (.returned value) after

section Rules

variable {α : Type} {evaluation : Eval Flow}

/-- Ending normally is no return. -/
theorem neverReturns_normal : NeverReturns (pure .normal) := by
  intro machine value after ended
  cases ended

/-- An interruption is no return. -/
theorem neverReturns_throw (interruption : Interruption) : NeverReturns (throw interruption) := by
  intro machine value after ended
  cases ended

/-- Only the last part of an evaluation matters. -/
theorem NeverReturns.behind
    {first : Eval α}
    {continuation : α -> Eval Flow}
    (rest : ∀ result, NeverReturns (continuation result)) :
    NeverReturns (first >>= continuation) := by
  intro machine value after ended
  cases outcome : first machine with
  | ok result middle =>
    rw [Eval.bind_of_ok outcome] at ended
    exact rest result middle value after ended
  | error interruption middle =>
    rw [Eval.bind_of_error outcome] at ended
    cases ended

/-- What is executed after statements that did not return. -/
theorem NeverReturns.goOn
    {more : Eval Flow}
    (first : NeverReturns evaluation)
    (rest : NeverReturns more) :
    NeverReturns (evaluation >>= Eval.goOnAfter more) := by
  intro machine value after ended
  cases outcome : evaluation machine with
  | error interruption middle =>
    rw [Eval.bind_of_error outcome] at ended
    cases ended
  | ok flow middle =>
    rw [Eval.bind_of_ok outcome] at ended
    cases flow with
    | normal => exact rest middle value after ended
    | returned result => exact first machine result middle outcome

/-- What never returns never returns in another scope. -/
theorem NeverReturns.within
    (inside : NeverReturns evaluation)
    (scope : ScopeRef) :
    NeverReturns (Eval.within scope evaluation) := by
  intro machine value after ended
  rw [Eval.within_eq_wrapped] at ended
  obtain ⟨left, outcome, -⟩ := Eval.wrapped_eq_ok ended
  exact inside _ _ _ outcome

end Rules

namespace Site

/-- A return statement outside of functions is reported. -/
theorem Sound.not_returns
    {around : Surroundings}
    {walk : Resolution}
    {keyword : Token}
    {value : Option Expr}
    (sound : Sound ⟨around, .statement (.returns keyword value), walk⟩)
    (outside : around.functionKind = .none) :
    False := by
  have reported := Resolution.adds_optionalExpression around value
    (walk.report keyword .returnAtTopLevel)
  have clean := sound.clean
  rw [outcome, Resolution.statement, if_pos outside] at clean
  have kept := reported.errors
  rw [clean, Resolution.report, Array.size_push] at kept
  omega

end Site

section Evaluation

variable {fuel : Nat} {around : Surroundings}

/-- Executing a statement outside of functions never returns, if nothing is reported
there. -/
def ExecutesOnward (fuel : Nat) (around : Surroundings) : Prop :=
  ∀ (step : Stmt) (walk : Resolution), Site.Sound ⟨around, .statement step, walk⟩ ->
    NeverReturns (Eval.execute fuel step)

/-- Statements in order never return where none of them may. -/
theorem neverReturns_sequence
    {steps : List Stmt}
    {walk : Resolution}
    (onward : ExecutesOnward fuel around)
    (sound : Site.Sound ⟨around, .statements steps, walk⟩) :
    NeverReturns (Eval.sequence (Eval.execute fuel) steps) := by
  induction steps generalizing walk with
  | nil => exact neverReturns_normal
  | cons first rest inductionHypothesis =>
    have firstSound := sound.child List.mem_cons_self
    have restSound := sound.child (List.mem_cons_of_mem _ List.mem_cons_self)
    exact (onward first walk firstSound).goOn (inductionHypothesis restSound)

/-- A loop never returns where its body may not. -/
theorem neverReturns_repeatWhile
    {body : Stmt}
    {walk : Resolution}
    (condition : Expr)
    (onward : ∀ less ≤ fuel, ExecutesOnward less around)
    (sound : Site.Sound ⟨around, .statement body, walk⟩) :
    NeverReturns (Eval.repeatWhile fuel condition body) := by
  induction fuel with
  | zero => exact neverReturns_throw _
  | succ fuel inductionHypothesis =>
    refine NeverReturns.behind fun tested => ?_
    split
    · exact (onward fuel (Nat.le_succ fuel) body walk sound).goOn
        (inductionHypothesis fun less isLess => onward less (Nat.le_succ_of_le isLess))
    · exact neverReturns_normal

/-- Outside functions no statement returns, by induction on the fuel. -/
theorem executesOnward (outside : around.functionKind = .none) (fuel : Nat) :
    ExecutesOnward fuel around := by
  induction fuel using Nat.strongRecOn with
  | ind fuel inductionHypothesis =>
    cases fuel with
    | zero =>
      intro step walk _
      cases step <;> exact neverReturns_throw _
    | succ fuel =>
      have onward : ∀ less ≤ fuel, ExecutesOnward less around :=
        fun less isLess => inductionHypothesis less (Nat.lt_succ_of_le isLess)
      intro step walk sound
      cases step with
      | expression value => exact NeverReturns.behind fun _ => neverReturns_normal
      | print value =>
        exact NeverReturns.behind fun _ => NeverReturns.behind fun _ => neverReturns_normal
      | declare name initializer =>
        exact NeverReturns.behind fun _ => NeverReturns.behind fun _ => neverReturns_normal
      | block body =>
        have inside := sound.child List.mem_cons_self
        refine NeverReturns.behind fun _ => NeverReturns.behind fun scope => ?_
        exact (neverReturns_sequence (onward fuel (Nat.le_refl _)) inside).within scope
      | conditional condition thenBranch elseBranch =>
        rw [Eval.execute_conditional]
        refine NeverReturns.behind fun tested => ?_
        split
        · exact onward fuel (Nat.le_refl _) thenBranch _
            (sound.child (List.mem_cons_of_mem _ List.mem_cons_self))
        · cases elseBranch with
          | none => exact neverReturns_normal
          | some branch =>
            exact onward fuel (Nat.le_refl _) branch _
              (sound.child (List.mem_cons_of_mem _ (List.mem_cons_of_mem _ List.mem_cons_self)))
      | loop condition body =>
        exact neverReturns_repeatWhile condition onward
          (sound.child (List.mem_cons_of_mem _ List.mem_cons_self))
      | function declaration => exact NeverReturns.behind fun _ => neverReturns_normal
      | returns keyword value => exact (sound.not_returns outside).elim
      | classDecl name superclass functions =>
        exact NeverReturns.behind fun _ => neverReturns_normal

end Evaluation

/-- No statement of a program returns, if nothing is reported in the program and it is
not inside of a function. -/
theorem neverReturns_of_mem
    {around : Surroundings}
    {walk : Resolution}
    {program : List Stmt}
    {statement : Stmt}
    (outside : around.functionKind = .none)
    (sound : Site.Sound ⟨around, .statements program, walk⟩)
    (member : statement ∈ program)
    (fuel : Nat) :
    NeverReturns (Eval.execute fuel statement) := by
  induction program generalizing walk with
  | nil => cases member
  | cons first rest inductionHypothesis =>
    rcases List.mem_cons.mp member with rfl | inRest
    · exact executesOnward outside fuel _ walk (sound.child List.mem_cons_self)
    · exact inductionHypothesis (sound.child (List.mem_cons_of_mem _ List.mem_cons_self)) inRest

end TreeWalk
