import TreeWalk.Proofs.Evaluation.Lockstep

/-!
# Evaluations that go together

Two evaluations go together, on machines that are paired, when they end in the same way
and on machines that are paired again.  This module has the rules by which evaluations
are shown to go together, and shows it of the steps that do not evaluate anything else.
-/

namespace TreeWalk

/-- An interruption without its line. -/
def Interruption.withoutLine : Interruption -> Interruption
  | .failure _ fault => .failure 0 fault
  | other => other

/-- A given line is dropped again with the lines. -/
theorem Interruption.withoutLine_orLine (interruption : Interruption) (line : Nat) :
    (interruption.orLine line).withoutLine = interruption.withoutLine := by
  cases interruption with
  | failure number fault => cases number <;> rfl
  | outputFull => rfl
  | outOfFuel => rfl

/-- Every line has the same number in both texts. -/
def Pairing.Exact (pairing : Pairing) : Prop :=
  ∀ line other, pairing.lines line other -> other = line

/-- Two runs are interrupted for the same reason and, if lines have the same numbers in
both texts, at the same line. -/
def Interruption.Paired (pairing : Pairing) (interruption other : Interruption) : Prop :=
  other.withoutLine = interruption.withoutLine ∧ (pairing.Exact -> other = interruption)

theorem Interruption.Paired.refl (pairing : Pairing) (interruption : Interruption) :
    interruption.Paired pairing interruption :=
  ⟨rfl, fun _ => rfl⟩

/-- Machines that are paired: apart from their heaps, their distances and the current
scopes they are in the same state. -/
structure Machine.Paired
    (lockstep : Lockstep)
    (world : lockstep.World)
    (machine other : Machine) : Prop where
  heap : machine.heap.Paired lockstep.toPairing world other.heap
  globals : machine.globals = lockstep.globals ∧ other.globals = lockstep.globals
  distances : machine.distances = lockstep.before ∧ other.distances = lockstep.after
  callDepth : other.callDepth = machine.callDepth
  clock : other.clock = machine.clock
  output : other.output = machine.output

/-- Evaluation has gone on from two machines to machines that are paired: the heaps have
grown, the current scopes are the same, and output has been added. -/
structure GoesOn
    (lockstep : Lockstep)
    (world : lockstep.World)
    (machine other : Machine)
    (later : lockstep.World)
    (after otherAfter : Machine) : Prop where
  same : after.Paired lockstep later otherAfter
  extended : lockstep.extended world later
  grows : Heap.Grows machine.heap after.heap
  otherGrows : Heap.Grows other.heap otherAfter.heap
  scope : after.scope = machine.scope
  otherScope : otherAfter.scope = other.scope
  written : ∃ bytes, after.output.written = machine.output.written ++ bytes

section Rules

variable
  {lockstep : Lockstep}
  {world : lockstep.World}
  {machine other : Machine}
  {α β : Type}

theorem GoesOn.refl (same : machine.Paired lockstep world other) :
    GoesOn lockstep world machine other world machine other :=
  ⟨same, lockstep.extended_refl world, .refl _, .refl _, rfl, rfl, .empty, by simp⟩

theorem GoesOn.trans
    {middle otherMiddle after otherAfter : Machine}
    {later last : lockstep.World}
    (one : GoesOn lockstep world machine other later middle otherMiddle)
    (two : GoesOn lockstep later middle otherMiddle last after otherAfter) :
    GoesOn lockstep world machine other last after otherAfter := by
  refine ⟨two.same, lockstep.extended_trans one.extended two.extended, one.grows.trans two.grows,
    one.otherGrows.trans two.otherGrows, two.scope.trans one.scope,
    two.otherScope.trans one.otherScope, ?_⟩
  obtain ⟨first, isFirst⟩ := one.written
  obtain ⟨second, isSecond⟩ := two.written
  exact ⟨first ++ second, by rw [isSecond, isFirst, ByteArray.append_assoc]⟩

/-- Two evaluations have ended in the same way, on machines that are paired.  If they have
come to results, these are related. -/
def EndTogether
    (lockstep : Lockstep)
    (world : lockstep.World)
    (machine other : Machine)
    (related : α -> α -> lockstep.World -> Machine -> Machine -> Prop) :
    EStateM.Result Interruption Machine α -> EStateM.Result Interruption Machine α -> Prop
  | .ok result after, .ok otherResult otherAfter =>
    ∃ later, GoesOn lockstep world machine other later after otherAfter ∧
      related result otherResult later after otherAfter
  | .error interruption after, .error otherInterruption otherAfter =>
    interruption.Paired lockstep.toPairing otherInterruption ∧
      ∃ later, GoesOn lockstep world machine other later after otherAfter
  | _, _ => False

/-- Two evaluations end in the same way. -/
def Together
    (lockstep : Lockstep)
    (world : lockstep.World)
    (evaluation otherEvaluation : Eval α)
    (machine other : Machine)
    (related : α -> α -> lockstep.World -> Machine -> Machine -> Prop) : Prop :=
  EndTogether lockstep world machine other related (evaluation machine) (otherEvaluation other)

/-- The results are the same. -/
def equalResults {World : Type} (result other : α) (_ : World) (_ _ : Machine) : Prop :=
  other = result

/-- Related results on paired machines. -/
theorem together_pure
    {related : α -> α -> lockstep.World -> Machine -> Machine -> Prop}
    {result otherResult : α}
    (same : machine.Paired lockstep world other)
    (holds : related result otherResult world machine other) :
    Together lockstep world (pure result) (pure otherResult) machine other related :=
  ⟨world, .refl same, holds⟩

/-- The same interruption on paired machines. -/
theorem together_throw
    {related : α -> α -> lockstep.World -> Machine -> Machine -> Prop}
    (same : machine.Paired lockstep world other)
    (interruption : Interruption) :
    Together lockstep world (throw interruption) (throw interruption) machine other related :=
  ⟨.refl _ interruption, world, .refl same⟩

/-- The same failure, at the same line of both texts. -/
theorem together_fail
    {related : α -> α -> lockstep.World -> Machine -> Machine -> Prop}
    {line otherLine : Nat}
    (same : machine.Paired lockstep world other)
    (lines : lockstep.lines line otherLine)
    (fault : RuntimeFault) :
    Together lockstep world (Eval.fail line fault) (Eval.fail otherLine fault) machine other
      related :=
  ⟨⟨rfl, fun exact => congrArg (Interruption.failure · fault) (exact _ _ lines)⟩, world,
    .refl same⟩

/-- Two evaluations in a row run together with two others when each does with its
counterpart. -/
theorem Together.bind
    {evaluation otherEvaluation : Eval α}
    {continuation otherContinuation : α -> Eval β}
    {between : α -> α -> lockstep.World -> Machine -> Machine -> Prop}
    {related : β -> β -> lockstep.World -> Machine -> Machine -> Prop}
    (first : Together lockstep world evaluation otherEvaluation machine other between)
    (second : ∀ result otherResult later after otherAfter,
      GoesOn lockstep world machine other later after otherAfter ->
      between result otherResult later after otherAfter ->
        Together lockstep later (continuation result) (otherContinuation otherResult) after
          otherAfter related) :
    Together lockstep world (evaluation >>= continuation) (otherEvaluation >>= otherContinuation)
      machine other related := by
  unfold Together at first
  change EndTogether lockstep world machine other related
    (EStateM.bind evaluation continuation machine)
    (EStateM.bind otherEvaluation otherContinuation other)
  unfold EStateM.bind
  cases outcome : evaluation machine <;> cases otherOutcome : otherEvaluation other <;>
    rw [outcome, otherOutcome] at first
  case ok.ok result after otherResult otherAfter =>
    obtain ⟨later, goesOn, holds⟩ := first
    have rest := second result otherResult later after otherAfter goesOn holds
    unfold Together at rest
    dsimp only
    cases ended : continuation result after <;>
      cases otherEnded : otherContinuation otherResult otherAfter <;>
      rw [ended, otherEnded] at rest
    case ok.ok =>
      obtain ⟨last, further, holds⟩ := rest
      exact ⟨last, goesOn.trans further, holds⟩
    case error.error =>
      obtain ⟨interruptions, last, further⟩ := rest
      exact ⟨interruptions, last, goesOn.trans further⟩
    all_goals exact rest.elim
  case error.error => exact first
  all_goals exact first.elim

/-- Evaluations that look at the machine first. -/
theorem together_get
    {continuation otherContinuation : Machine -> Eval β}
    {related : β -> β -> lockstep.World -> Machine -> Machine -> Prop}
    (rest : Together lockstep world (continuation machine) (otherContinuation other) machine other
      related) :
    Together lockstep world (get >>= continuation) (get >>= otherContinuation) machine other
      related :=
  rest

/-- A weaker relation between the results. -/
theorem Together.imp
    {evaluation otherEvaluation : Eval α}
    {related weaker : α -> α -> lockstep.World -> Machine -> Machine -> Prop}
    (together : Together lockstep world evaluation otherEvaluation machine other related)
    (implies : ∀ result otherResult later after otherAfter,
      related result otherResult later after otherAfter ->
        weaker result otherResult later after otherAfter) :
    Together lockstep world evaluation otherEvaluation machine other weaker := by
  unfold Together at together ⊢
  cases outcome : evaluation machine <;> cases otherOutcome : otherEvaluation other <;>
    rw [outcome, otherOutcome] at together
  case ok.ok =>
    obtain ⟨later, goesOn, holds⟩ := together
    exact ⟨later, goesOn, implies _ _ _ _ _ holds⟩
  all_goals exact together

/-- Run evaluations on machines that are prepared for it, and tidy up behind them. -/
theorem Together.wrapped
    {evaluation otherEvaluation : Eval α}
    {prepare otherPrepare : Machine -> Machine}
    {tidy otherTidy : Machine -> Machine -> Machine}
    {pass otherPass : Interruption -> Interruption}
    (inside : Together lockstep world evaluation otherEvaluation (prepare machine)
      (otherPrepare other) equalResults)
    (back : ∀ later after otherAfter,
      GoesOn lockstep world (prepare machine) (otherPrepare other) later after otherAfter ->
        GoesOn lockstep world machine other later (tidy machine after)
          (otherTidy other otherAfter))
    (passes : ∀ interruption otherInterruption : Interruption,
      interruption.Paired lockstep.toPairing otherInterruption ->
        (pass interruption).Paired lockstep.toPairing (otherPass otherInterruption)) :
    Together lockstep world (Eval.wrapped prepare tidy pass evaluation)
      (Eval.wrapped otherPrepare otherTidy otherPass otherEvaluation) machine other
      equalResults := by
  unfold Together at inside ⊢
  unfold Eval.wrapped
  cases outcome : evaluation (prepare machine) <;>
    cases otherOutcome : otherEvaluation (otherPrepare other) <;>
    rw [outcome, otherOutcome] at inside
  case ok.ok =>
    obtain ⟨later, goesOn, same⟩ := inside
    exact ⟨later, back _ _ _ goesOn, same⟩
  case error.error =>
    obtain ⟨interruptions, later, goesOn⟩ := inside
    exact ⟨passes _ _ interruptions, later, back _ _ _ goesOn⟩
  all_goals exact inside.elim

/-- Run evaluations in other scopes. -/
theorem together_within
    {evaluation otherEvaluation : Eval α}
    {scope otherScope : ScopeRef}
    (inside : Together lockstep world evaluation otherEvaluation
      { machine with scope := scope } { other with scope := otherScope } equalResults) :
    Together lockstep world (Eval.within scope evaluation)
      (Eval.within otherScope otherEvaluation) machine other equalResults := by
  rw [Eval.within_eq_wrapped, Eval.within_eq_wrapped]
  refine inside.wrapped ?_ fun _ _ interruptions => interruptions
  rintro later after otherAfter ⟨same, extended, grows, otherGrows, -, -, written⟩
  exact ⟨⟨same.heap, same.globals, same.distances, same.callDepth, same.clock, same.output⟩,
    extended, grows, otherGrows, rfl, rfl, written⟩

/-- Run evaluations as calls in progress, at the same line of both texts. -/
theorem together_asCall
    {evaluation otherEvaluation : Eval α}
    {line otherLine : Nat}
    (lines : lockstep.lines line otherLine)
    (inside : Together lockstep world evaluation otherEvaluation
      { machine with callDepth := machine.callDepth + 1 }
      { other with callDepth := other.callDepth + 1 } equalResults) :
    Together lockstep world (Eval.asCall line evaluation) (Eval.asCall otherLine otherEvaluation)
      machine other equalResults := by
  rw [Eval.asCall_eq_wrapped, Eval.asCall_eq_wrapped]
  refine inside.wrapped ?_ ?_
  · rintro later after otherAfter ⟨same, extended, grows, otherGrows, scope, otherScope, written⟩
    exact ⟨⟨same.heap, same.globals, same.distances, congrArg (· - 1) same.callDepth, same.clock,
      same.output⟩, extended, grows, otherGrows, scope, otherScope, written⟩
  · rintro interruption otherInterruption ⟨sameReason, sameLine⟩
    refine ⟨?_, fun exact => ?_⟩
    · rw [Interruption.withoutLine_orLine, Interruption.withoutLine_orLine, sameReason]
    · rw [sameLine exact, exact _ _ lines]

end Rules

/-! ## Paired machines -/

/-- Machines are paired, and their current scopes are where the code at a position is
run. -/
structure Abreast
    (lockstep : Lockstep)
    (world : lockstep.World)
    (position : lockstep.Position)
    (machine other : Machine) : Prop where
  same : machine.Paired lockstep world other
  aligned :
    lockstep.aligned world machine.heap other.heap machine.scope other.scope position

section Machines

variable
  {lockstep : Lockstep}
  {world later : lockstep.World}
  {position : lockstep.Position}
  {machine other after otherAfter : Machine}
  {place otherPlace : ScopeRef}
  {naming : Naming}

/-- Machines abreast stay so as they go on. -/
theorem Abreast.goOn
    (abreast : Abreast lockstep world position machine other)
    (goesOn : GoesOn lockstep world machine other later after otherAfter) :
    Abreast lockstep later position after otherAfter := by
  refine ⟨goesOn.same, ?_⟩
  rw [goesOn.scope, goesOn.otherScope]
  exact lockstep.aligned_grow abreast.aligned goesOn.grows goesOn.otherGrows goesOn.extended

/-- Where something may be declared, the current scopes are paired. -/
theorem Abreast.innermost
    (abreast : Abreast lockstep world position machine other)
    (declares : lockstep.declares position) :
    lockstep.paired world machine.scope other.scope (lockstep.naming position) :=
  lockstep.innermost abreast.same.heap.scopes abreast.aligned declares

/-- Steps on the heaps, after which the heaps are paired again. -/
theorem GoesOn.ofHeap
    {heap otherHeap : Heap}
    (same : machine.Paired lockstep world other)
    (heaps : heap.Paired lockstep.toPairing later otherHeap)
    (extended : lockstep.extended world later)
    (grows : Heap.Grows machine.heap heap)
    (otherGrows : Heap.Grows other.heap otherHeap) :
    GoesOn lockstep world machine other later { machine with heap := heap }
      { other with heap := otherHeap } :=
  ⟨⟨heaps, same.globals, same.distances, same.callDepth, same.clock, same.output⟩, extended,
    grows, otherGrows, rfl, rfl, .empty, by simp⟩

/-- A name is bound, under its other spelling, in paired scopes. -/
theorem GoesOn.define
    {name otherName : String}
    (same : machine.Paired lockstep world other)
    (paired : lockstep.paired world place otherPlace naming)
    (spelled : otherName = naming.spell name)
    (value : Value) :
    GoesOn lockstep world machine other world
      { machine with heap := machine.heap.define place name value }
      { other with heap := other.heap.define otherPlace otherName value } := by
  subst spelled
  exact .ofHeap same (same.heap.define paired name value)
    (lockstep.extended_refl world) (Heap.grows_define _ _ _ _) (Heap.grows_define _ _ _ _)

/-- A name that is bound in the current scope stays bound. -/
theorem GoesOn.bound
    {name : String}
    (goesOn : GoesOn lockstep world machine other later after otherAfter)
    (made : machine.scope.index < machine.heap.scopes.size)
    (bound : (machine.heap.scope machine.scope).bindings.contains name = true) :
    (after.heap.scope after.scope).bindings.contains name = true := by
  rw [goesOn.scope]
  exact goesOn.grows.names _ _ made bound

end Machines

end TreeWalk
