import TreeWalk.Proofs.Evaluation.ForLoops
import TreeWalk.Proofs.Resolution.Renumbering
import TreeWalk.Proofs.Resolution.SpareScope

/-!
# Resolving loops with a `for` header

The names of a loop with a `for` header mean the same as those of the statement that the
parser makes of it.  The loop is resolved as an outline of it is, a statement that is
never executed, in which the increment stands beside the body and not in a block with
it.
-/

namespace TreeWalk

namespace ForLoop

/-- The outline of what is repeated. -/
def roundOutline (loop : ForLoop) : Stmt :=
  match loop.increment with
  | none => .loop loop.tested loop.body
  | some increment => .conditional loop.tested loop.body (some (.expression increment))

/-- A statement that is resolved as the loop is. -/
def outline (loop : ForLoop) : Stmt :=
  match loop.initializer with
  | none => loop.roundOutline
  | some first => .block [first, loop.roundOutline]

/-- The outline has the references of the statement that the parser makes. -/
theorem ids_outline (loop : ForLoop) : loop.outline.ids = loop.desugared.ids := by
  rw [desugared_eq]
  unfold outline roundOutline repeated
  cases loop.initializer <;> cases loop.increment <;>
    simp [Stmt.ids, Stmt.listIds, Stmt.optionIds]

/-- The body of a loop is well formed when the desugared loop is. -/
theorem body_wellFormed
    {names : Token -> Prop}
    {loop : ForLoop}
    (form : loop.desugared.WellFormed names) :
    loop.body.WellFormed names := by
  rw [desugared_eq] at form
  unfold repeated at form
  cases isInitializer : loop.initializer <;> cases isIncrement : loop.increment <;>
    simp_all

/-- Missing conditions have no names. -/
theorem expression_tested
    (around : Surroundings)
    (loop : ForLoop)
    (walk : Resolution) :
    Resolution.expression around loop.tested walk =
      Resolution.optionalExpression around loop.condition walk := by
  unfold tested
  cases loop.condition with
  | none => rw [Option.getD_none, Resolution.expression, Resolution.optionalExpression]
  | some condition => rfl

section Walks

variable {names : Token -> Prop} {loop : ForLoop} {around : Surroundings} {walk other : Resolution}

/-- The body of a loop leaves the scopes as they are. -/
theorem scopes_body
    (form : loop.body.WellFormed names)
    (nothing : loop.body.declaredName? = none) :
    (Resolution.statement around loop.body walk).scopes = walk.scopes := by
  rw [Resolution.scopes_statement around loop.body walk form, nothing]
  rfl

/-- A round whose body declares nothing is resolved as its outline. -/
theorem resolveRound_eq
    (form : loop.body.WellFormed names)
    (nothing : loop.body.declaredName? = none) :
    loop.resolveRound around walk = Resolution.statement around loop.roundOutline walk := by
  have kept : (Resolution.statement around loop.body
      (Resolution.optionalExpression around loop.condition walk)).scopes = walk.scopes := by
    rw [scopes_body form nothing]
    exact (Resolution.stays_optionalExpression around loop.condition walk).scopes
  unfold resolveRound roundOutline
  dsimp only
  rw [← kept]
  cases loop.increment with
  | none =>
    rw [Resolution.optionalExpression, Resolution.statement, expression_tested]
  | some increment =>
    rw [Resolution.optionalExpression, Resolution.statement, expression_tested,
      Resolution.optionalStatement, Resolution.statement]

/-- A loop is resolved as its outline is. -/
theorem resolve_eq
    (form : loop.body.WellFormed names)
    (nothing : loop.body.declaredName? = none) :
    loop.resolve around walk = Resolution.statement around loop.outline walk := by
  unfold resolve enter outline
  rw [resolveRound_eq form nothing]
  cases loop.initializer with
  | none => rfl
  | some first =>
    rw [Resolution.statement, Resolution.statements, Resolution.statements,
      Resolution.statements]

variable {number : Nat -> Nat}

/-- A loop with other numbers is resolved in the same way. -/
theorem renumbered_resolve
    (injective : Function.Injective number)
    (around : Surroundings)
    (loop : ForLoop)
    (renumbered : Resolution.Renumbered number walk other) :
    Resolution.Renumbered number (loop.resolve around walk)
      ((loop.renumber number).resolve around other) := by
  have round : ∀ {walk other}, Resolution.Renumbered number walk other ->
      Resolution.Renumbered number (loop.resolveRound around walk)
        ((loop.renumber number).resolveRound around other) := by
    intro walk other renumbered
    have tested := renumbered.optionalExpression injective around loop.condition
    have after := Resolution.renumbered_statement injective around loop.body tested
    refine Resolution.Renumbered.optionalExpression injective ?_ around loop.increment
    exact ⟨renumbered.scopes, after.globals, after.errors, after.topLevel, after.distances⟩
  obtain ⟨initializer, condition, increment, body⟩ := loop
  unfold resolve
  cases initializer with
  | none => exact round renumbered
  | some first =>
    exact (round (Resolution.renumbered_statement injective around first
      (renumbered.enter .empty))).leave

end Walks

end ForLoop

namespace Resolution

section Loops

variable
  {roots : List Site}
  {setting : Setting}
  {number : Nat -> Nat}
  {loop : ForLoop}
  {around : Surroundings}
  {walk other : Resolution}

/-- Where no scope is spared, the innermost one is not. -/
theorem noGap {step : Stmt} (isGap : Gap.none = .beyond 0) : step.declaredName? = none := by
  cases isGap

/-- Go over what is repeated, with a spare scope around the body and the increment, and
over the outline of it, without. -/
theorem beside_round
    (nothing : loop.body.declaredName? = none)
    (charted : Charted roots setting.before
      ⟨around, .statement (.loop loop.tested loop.repeated), walk⟩)
    (filed : Site.Filed setting.after
      ⟨around, .statement (loop.roundOutline.renumber number), other⟩)
    (beside : Beside .none walk other) :
    Beside .none (statement around (.loop loop.tested loop.repeated) walk)
        (statement around (loop.roundOutline.renumber number) other) ∧
      loop.tested.Fits setting number .none ∧ loop.RoundFits setting number := by
  unfold ForLoop.repeated ForLoop.roundOutline ForLoop.RoundFits at *
  cases isIncrement : loop.increment with
  | none =>
    rw [isIncrement] at charted filed
    obtain ⟨last, fits⟩ := beside_statement _ noGap charted filed beside
    rw [Stmt.Fits] at fits
    exact ⟨last, fits⟩
  | some increment =>
    rw [isIncrement] at charted filed
    dsimp only at charted filed ⊢
    rw [Stmt.renumber, Stmt.optionRenumber, Stmt.renumber] at filed ⊢
    -- The walk over the statement goes through a block, that over the outline does not.
    have chartedBlock := charted.child (List.mem_cons_of_mem _ List.mem_cons_self)
    have chartedSteps := chartedBlock.child List.mem_cons_self
    have chartedRest := chartedSteps.child (List.mem_cons_of_mem _ List.mem_cons_self)
    have chartedIncrement := (chartedRest.child List.mem_cons_self).child List.mem_cons_self
    have filedIncrement := (filed.child (List.mem_cons_of_mem _ (List.mem_cons_of_mem _
      List.mem_cons_self))).child List.mem_cons_self
    obtain ⟨tested, testedFits⟩ := beside_expression loop.tested
      (charted.child List.mem_cons_self) (filed.child List.mem_cons_self) beside
    obtain ⟨middle, bodyFits⟩ := beside_statement loop.body (fun _ => nothing)
      (chartedSteps.child List.mem_cons_self)
      (filed.child (List.mem_cons_of_mem _ List.mem_cons_self))
      (tested.enterSpare chartedBlock.settled)
    obtain ⟨last, incrementFits⟩ := beside_expression increment chartedIncrement filedIncrement
      middle
    rw [statement, statement, statement, statements, statements, statements, statement,
      optionalStatement, statement]
    exact ⟨last.leaveSpare, testedFits, bodyFits, incrementFits⟩

/-- The names of a loop mean the same as those of the statement that the parser makes of
it. -/
theorem beside_forLoop
    (nothing : loop.body.declaredName? = none)
    (charted : Charted roots setting.before ⟨around, .statement loop.desugared, walk⟩)
    (filed : Site.Filed setting.after ⟨around, .statement (loop.outline.renumber number), other⟩)
    (beside : Beside .none walk other) :
    Beside .none (statement around loop.desugared walk)
        (statement around (loop.outline.renumber number) other) ∧
      loop.Fits setting number := by
  have condition : loop.tested.Fits setting number .none ->
      Expr.OptionFits setting number .none loop.condition := by
    intro fits
    unfold ForLoop.tested at fits
    cases isCondition : loop.condition with
    | none => trivial
    | some condition =>
      rw [isCondition] at fits
      exact fits
  rw [ForLoop.desugared_eq] at charted ⊢
  unfold ForLoop.outline at filed ⊢
  cases isInitializer : loop.initializer with
  | none =>
    rw [isInitializer] at charted filed
    obtain ⟨last, testedFits, roundFits⟩ := beside_round nothing charted filed beside
    refine ⟨last, ?_, condition testedFits, roundFits⟩
    rw [isInitializer]
    exact nofun
  | some first =>
    rw [isInitializer] at charted filed
    dsimp only at charted filed ⊢
    rw [Stmt.renumber, Stmt.listRenumber, Stmt.listRenumber, Stmt.listRenumber] at filed ⊢
    have chartedSteps := charted.child List.mem_cons_self
    have filedSteps := filed.child List.mem_cons_self
    have chartedRest := chartedSteps.child (List.mem_cons_of_mem _ List.mem_cons_self)
    have filedRest := filedSteps.child (List.mem_cons_of_mem _ List.mem_cons_self)
    obtain ⟨entered, firstFits⟩ := beside_statement first noGap
      (chartedSteps.child List.mem_cons_self) (filedSteps.child List.mem_cons_self)
      (beside.enter .empty)
    obtain ⟨last, testedFits, roundFits⟩ := beside_round nothing
      (chartedRest.child List.mem_cons_self) (filedRest.child List.mem_cons_self) entered
    rw [statement, statement, statements, statements, statements, statements, statements,
      statements]
    refine ⟨@Beside.leave .none _ _ last, ?_, condition testedFits, roundFits⟩
    rw [isInitializer]
    rintro _ ⟨⟩
    exact firstFits

/-- The walk at the same place, which has found nothing yet. -/
def anew (walk : Resolution) : Resolution :=
  { scopes := walk.scopes, globals := walk.globals }

/-- A walk started anew is its own renumbering. -/
theorem renumbered_anew (number : Nat -> Nat) (walk : Resolution) :
    Renumbered number walk.anew walk.anew :=
  ⟨rfl, rfl, rfl, Array.map_empty.symm, Distances.renumbered_empty number⟩

/-- A loop with numbers of its own is resolved without errors at the place of the
statement that the parser makes of it, and its names mean the same. -/
theorem fits_of_resolve
    (injective : Function.Injective number)
    (nothing : loop.body.declaredName? = none)
    (charted : Charted roots setting.before ⟨around, .statement loop.desugared, walk⟩)
    (noted : ∀ id ∈ loop.desugared.ids, setting.after[number id]? =
      ((loop.renumber number).resolve around walk.anew).distances[number id]?) :
    ((loop.renumber number).resolve around walk.anew).errors = #[] ∧
      loop.Fits setting number := by
  have sound := charted.sound
  -- The outline has the names of the loop, but its parts are where the walk over a
  -- statement goes: what is filed for it is filed for each of them.
  have resolved := ForLoop.renumbered_resolve injective around loop (renumbered_anew number walk)
  rw [ForLoop.resolve_eq (ForLoop.body_wellFormed charted.wellFormed) nothing] at resolved
  have outlined := renumbered_statement injective around loop.outline (renumbered_anew number walk)
  have filed : Site.Filed setting.after
      ⟨around, .statement (loop.outline.renumber number), walk.anew⟩ := by
    have isIds : (loop.outline.renumber number).ids = loop.desugared.ids.map number := by
      rw [Stmt.ids_renumber, ForLoop.ids_outline]
    refine ⟨?_, fun id _ => Std.TreeMap.getElem?_emptyc, ?_⟩
    · rw [Part.ids, isIds]
      exact sound.distinct.map injective
    · intro id member
      rw [Part.ids, isIds] at member
      obtain ⟨old, inside, rfl⟩ := List.mem_map.mp member
      rw [noted old inside, resolved.distances.filed]
      exact (outlined.distances.filed old).symm
  have noErrors : walk.errors = #[] := Array.size_eq_zero_iff.mp sound.noErrors
  have clean : (statement around loop.desugared walk).errors = #[] :=
    Array.size_eq_zero_iff.mp sound.clean
  obtain ⟨last, fits⟩ := beside_forLoop nothing charted filed ⟨.same, rfl, noErrors.symm⟩
  refine ⟨?_, fits⟩
  rw [resolved.errors, ← outlined.errors, last.errors, clean]

end Loops

end Resolution
end TreeWalk
