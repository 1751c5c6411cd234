import TreeWalk.Proofs.Evaluation.Restoration

/-!
# Evaluation on a bare machine

On a machine without functions and classes there is nothing that a call could execute but
native functions.  Main statement: there every expression settles.  With enough fuel its
evaluation comes to a result or fails, does not depend on how much fuel there is, writes
nothing, and leaves the machine bare.  The proof is by induction on the expression.
-/

namespace TreeWalk

/-- No function and no class has been made on a machine, and it has the given output. -/
structure Machine.Bare (output : Output) (machine : Machine) : Prop where
  functions : machine.heap.functions = #[]
  classes : machine.heap.classes = #[]
  output : machine.output = output

/-- An evaluation has ended, with a result or an error to report, and has left a bare
machine. -/
inductive EndsBare {α : Type} (output : Output) : EStateM.Result Interruption Machine α -> Prop
  | ok
      {result : α}
      {after : Machine}
      (bare : after.Bare output) :
      EndsBare output (.ok result after)
  | error
      {interruption : Interruption}
      {after : Machine}
      (reported : interruption.error?.isSome)
      (bare : after.Bare output) :
      EndsBare output (.error interruption after)

/-- An evaluation without fuel of its own keeps machines bare. -/
def KeepsBare {α : Type} (output : Output) (evaluation : Eval α) : Prop :=
  ∀ machine : Machine, machine.Bare output -> EndsBare output (evaluation machine)

/-- From some amount of fuel on, an evaluation ends in one and the same way on each bare
machine, and keeps it bare. -/
def Settles {α : Type} (output : Output) (evaluation : Nat -> Eval α) : Prop :=
  ∀ machine : Machine, machine.Bare output -> ∃ ending enough,
    EndsBare output ending ∧ ∀ fuel, enough ≤ fuel -> evaluation fuel machine = ending

variable {α β : Type} {output : Output}

section Rules

/-- What takes no fuel is settled from the start. -/
theorem KeepsBare.settles
    {evaluation : Eval α}
    (keeps : KeepsBare output evaluation) :
    Settles output fun _ => evaluation :=
  fun machine bare => ⟨evaluation machine, 0, keeps machine bare, fun _ _ => rfl⟩

/-- The first unit of fuel does not matter. -/
theorem Settles.later
    {evaluation : Nat -> Eval α}
    (settles : Settles output fun fuel => evaluation (fuel + 1)) :
    Settles output evaluation := by
  intro machine bare
  obtain ⟨ending, enough, ends, settled⟩ := settles machine bare
  refine ⟨ending, enough + 1, ends, fun fuel sufficient => ?_⟩
  obtain ⟨less, rfl⟩ : ∃ less, fuel = less + 1 := ⟨fuel - 1, by omega⟩
  exact settled less (by omega)

/-- Two settled evaluations in a row are settled from the larger of their fuels on. -/
theorem Settles.bind
    {evaluation : Nat -> Eval α}
    {continuation : Nat -> α -> Eval β}
    (first : Settles output evaluation)
    (second : ∀ result, Settles output fun fuel => continuation fuel result) :
    Settles output fun fuel => evaluation fuel >>= continuation fuel := by
  intro machine bare
  obtain ⟨ending, enough, ends, settled⟩ := first machine bare
  cases ends with
  | error reported left =>
    exact ⟨_, enough, .error reported left, fun fuel sufficient =>
      Eval.bind_of_error (settled fuel sufficient) _⟩
  | @ok result middle left =>
    obtain ⟨ending, enoughThen, ends, settledThen⟩ := second result middle left
    refine ⟨ending, max enough enoughThen, ends, fun fuel sufficient => ?_⟩
    exact (Eval.bind_of_ok (settled fuel (by omega)) _).trans (settledThen fuel (by omega))

/-- A result is bare already. -/
theorem keepsBare_pure (result : α) : KeepsBare output (pure result) :=
  fun _ bare => .ok bare

/-- A failure is bare already. -/
theorem keepsBare_fail (line : Nat) (fault : RuntimeFault) :
    KeepsBare output (Eval.fail line fault : Eval α) :=
  fun _ bare => .error rfl bare

/-- An evaluation that looks at the bare machine first. -/
theorem keepsBare_get
    {continuation : Machine -> Eval β}
    (rest : ∀ machine, machine.Bare output -> KeepsBare output (continuation machine)) :
    KeepsBare output (get >>= continuation) :=
  fun machine bare => rest machine bare machine bare

/-- A counted call keeps what happens inside. -/
theorem keepsBare_asCall
    {evaluation : Eval α}
    (inside : KeepsBare output evaluation)
    (line : Nat) :
    KeepsBare output (Eval.asCall line evaluation) := by
  intro machine bare
  have ends := inside { machine with callDepth := machine.callDepth + 1 }
    ⟨bare.functions, bare.classes, bare.output⟩
  unfold Eval.asCall
  cases ended : evaluation { machine with callDepth := machine.callDepth + 1 } with
  | ok result after =>
    rw [ended] at ends
    cases ends with
    | ok left => exact .ok ⟨left.functions, left.classes, left.output⟩
  | error interruption after =>
    rw [ended] at ends
    cases ends with
    | error reported left =>
      refine .error ?_ ⟨left.functions, left.classes, left.output⟩
      unfold Interruption.orLine
      split
      · rfl
      · exact reported

end Rules

theorem keepsBare_readVariable (reference : Reference) :
    KeepsBare output (Eval.readVariable reference) := by
  intro machine bare
  unfold Eval.readVariable
  split
  · exact .ok bare
  · split
    · exact .ok bare
    · exact keepsBare_fail _ _ machine bare

theorem keepsBare_assignVariable (reference : Reference) (value : Value) :
    KeepsBare output (Eval.assignVariable reference value) := by
  intro machine bare
  rw [Eval.assignVariable_eq]
  split
  · exact .ok ⟨bare.functions, bare.classes, bare.output⟩
  · exact keepsBare_fail _ _ machine bare

theorem keepsBare_setField (receiver : InstanceRef) (name : String) (value : Value) :
    KeepsBare output (Eval.changeHeap (·.setField receiver name value)) :=
  fun _ bare => .ok ⟨bare.functions, bare.classes, bare.output⟩

theorem keepsBare_applyUnary (operator : Token) (right : Value) :
    KeepsBare output (Eval.applyUnary operator right) := by
  unfold Eval.applyUnary
  split
  · exact keepsBare_pure _
  · split
    · exact keepsBare_pure _
    · exact keepsBare_fail _ _
  · exact keepsBare_fail _ _

theorem keepsBare_add (operator : Token) (left right : Value) :
    KeepsBare output (Eval.add operator left right) := by
  unfold Eval.add
  split
  · exact keepsBare_pure _
  · exact keepsBare_get fun _ _ => keepsBare_pure _
  · exact keepsBare_get fun _ _ => keepsBare_pure _
  · exact keepsBare_fail _ _

theorem keepsBare_applyNumeric (operator : Token) (x y : Float) :
    KeepsBare output (Eval.applyNumeric operator x y) := by
  unfold Eval.applyNumeric
  split
  case h_8 => exact keepsBare_fail _ _
  all_goals exact keepsBare_pure _

theorem keepsBare_applyBinary (operator : Token) (left right : Value) :
    KeepsBare output (Eval.applyBinary operator left right) := by
  unfold Eval.applyBinary
  split
  · exact keepsBare_pure _
  · exact keepsBare_pure _
  · exact keepsBare_add operator left right
  · split
    · exact keepsBare_applyNumeric operator _ _
    · exact keepsBare_fail _ _

/-- There are no methods without classes. -/
theorem Machine.Bare.method?
    {machine : Machine}
    (bare : machine.Bare output)
    (place : ClassRef)
    (name : String) :
    machine.heap.method? place name = none := by
  simp [Heap.method?, Heap.class?, bare.classes]

/-- Without functions and classes, only native functions can be called. -/
theorem Machine.Bare.callable?
    {machine : Machine}
    (bare : machine.Bare output)
    {callee : Value}
    {callable : Callable}
    (found : machine.heap.callable? callee = some callable) :
    ∃ native, callable = .native native := by
  cases callee with
  | native place =>
    rw [Heap.callable?, Option.map_eq_some_iff] at found
    obtain ⟨native, -, rfl⟩ := found
    exact ⟨native, rfl⟩
  | function place => simp [Heap.callable?, Heap.function?, bare.functions] at found
  | classObject place => simp [Heap.callable?, Heap.class?, bare.classes] at found
  | _ => cases found

theorem keepsBare_readProperty (receiver : InstanceRef) (name : Token) :
    KeepsBare output (Eval.readProperty receiver name) := by
  refine keepsBare_get fun machine bare => ?_
  dsimp only
  split
  · exact keepsBare_pure _
  · split
    · rename_i method found
      obtain ⟨object, -, isMethod⟩ := Option.bind_eq_some_iff.mp found
      rw [bare.method?] at isMethod
      cases isMethod
    · exact keepsBare_fail _ _

theorem keepsBare_readInherited (keyword : Reference) (method : Token) :
    KeepsBare output (Eval.readInherited keyword method) := by
  refine keepsBare_get fun machine bare => ?_
  split
  · exact keepsBare_fail _ _
  · split
    · rw [bare.method?]
      exact keepsBare_fail _ _
    · exact keepsBare_fail _ _

theorem keepsBare_callNative (native : Native) (arguments : List Value) :
    KeepsBare output (Eval.callNative native arguments) := by
  unfold Eval.callNative
  split
  · intro machine bare
    rw [Eval.readClock_eq]
    have ticked : machine.ticked.Bare output := ⟨bare.functions, bare.classes, bare.output⟩
    split
    · exact .ok ticked
    · exact .error rfl ticked
  · split
    · exact keepsBare_pure _
    · exact keepsBare_fail _ _

/-- A call does not execute any statement, so it does not matter how one would be. -/
theorem settles_invoke
    (execute : Nat -> Stmt -> Eval Flow)
    (callee : Value)
    (paren : Token)
    (arguments : List Value) :
    Settles output fun fuel => Eval.invoke (execute fuel) callee paren arguments := by
  intro machine bare
  simp only [Eval.invoke_apply]
  cases found : machine.heap.callable? callee with
  | none =>
    exact (keepsBare_fail paren.line .notCallable).settles machine bare
  | some callable =>
    obtain ⟨native, rfl⟩ := bare.callable? found
    have calls : KeepsBare output (Eval.invokeAt (execute 0) paren.line arguments
        machine.callDepth (some (.native native))) := by
      unfold Eval.invokeAt
      dsimp only
      split
      · exact keepsBare_fail _ _
      · split
        · exact keepsBare_fail _ _
        · exact keepsBare_asCall (keepsBare_callNative native arguments) paren.line
    exact calls.settles machine bare

mutual

/-- Every expression settles on bare machines. -/
theorem settles_evaluate : (value : Expr) -> Settles output fun fuel => Eval.evaluate fuel value
  | .literal value => .later (keepsBare_pure value.toValue).settles
  | .grouping inner => .later (settles_evaluate inner)
  | .unary operator right =>
    .later ((settles_evaluate right).bind fun _ => (keepsBare_applyUnary operator _).settles)
  | .binary left operator right =>
    .later ((settles_evaluate left).bind fun _ => (settles_evaluate right).bind fun _ =>
      (keepsBare_applyBinary operator _ _).settles)
  | .logical left operator right => by
    refine .later ((settles_evaluate left).bind fun leftValue => ?_)
    split
    · exact (keepsBare_pure leftValue).settles
    · exact settles_evaluate right
  | .read target => .later (keepsBare_readVariable target).settles
  | .assign target value =>
    .later ((settles_evaluate value).bind fun result =>
      (keepsBare_assignVariable target result).settles.bind fun _ =>
        (keepsBare_pure result).settles)
  | .call callee paren arguments =>
    .later ((settles_evaluate callee).bind fun _ => (settles_each arguments).bind fun _ =>
      settles_invoke Eval.execute _ paren _)
  | .property object name => by
    refine .later ((settles_evaluate object).bind fun receiver => ?_)
    cases receiver with
    | object receiver => exact (keepsBare_readProperty receiver name).settles
    | _ => exact (keepsBare_fail name.line .noProperties).settles
  | .setProperty object name value => by
    refine .later ((settles_evaluate object).bind fun receiver => ?_)
    cases receiver with
    | object receiver =>
      exact (settles_evaluate value).bind fun result =>
        (keepsBare_setField receiver name.lexeme result).settles.bind fun _ =>
          (keepsBare_pure result).settles
    | _ => exact (keepsBare_fail name.line .noFields).settles
  | .self keyword => .later (keepsBare_readVariable keyword).settles
  | .inherited keyword method => .later (keepsBare_readInherited keyword method).settles

theorem settles_each :
    (values : List Expr) -> Settles output fun fuel => Eval.each (Eval.evaluate fuel) values
  | [] => (keepsBare_pure []).settles
  | first :: rest =>
    (settles_evaluate first).bind fun value => (settles_each rest).bind fun values =>
      (keepsBare_pure (value :: values)).settles

end

end TreeWalk
