import TreeWalk.Proofs.Evaluation.Contracts

/-!
# Invariants of evaluation

However an evaluation ends, the machine goes on where it was: in the same scope, with the
same distances and with as many calls in progress.  Only the heap is another one.  A
`Regime` says which machines are sound, how their heaps come from one another, and how
evaluation may be interrupted.  An `Invariant` is a regime that every single step on the
heap keeps to.  So it is a contract, and evaluation as a whole keeps to it.
-/

namespace TreeWalk

/-- A machine goes on where it was. -/
structure Machine.Resumes (before after : Machine) : Prop where
  scope : after.scope = before.scope
  globals : after.globals = before.globals
  distances : after.distances = before.distances
  callDepth : after.callDepth = before.callDepth

theorem Machine.Resumes.refl (machine : Machine) : machine.Resumes machine :=
  ⟨rfl, rfl, rfl, rfl⟩

theorem Machine.Resumes.trans
    {before middle after : Machine}
    (one : before.Resumes middle)
    (other : middle.Resumes after) :
    before.Resumes after :=
  ⟨other.scope.trans one.scope, other.globals.trans one.globals,
    other.distances.trans one.distances, other.callDepth.trans one.callDepth⟩

/-- What machines are kept to: which of them are sound, how one heap may come from
another, and how evaluation may be interrupted. -/
structure Regime where
  sound : Machine -> Prop
  leads : Heap -> Heap -> Prop
  interrupts : Interruption -> Prop := fun _ => True
  sound_of_eq : ∀ {machine other : Machine}, sound machine -> other.heap = machine.heap ->
    other.globals = machine.globals -> other.distances = machine.distances ->
    other.output.fullText = machine.output.fullText -> sound other
  leads_refl : ∀ heap, leads heap heap
  leads_trans : ∀ {before middle after : Heap},
    leads before middle -> leads middle after -> leads before after
  interrupts_orLine : ∀ {interruption : Interruption} (line : Nat),
    interrupts interruption -> interrupts (interruption.orLine line) := by intros; trivial
  interrupts_failure : ∀ (line : Nat) {fault : RuntimeFault}, fault.isMisplacedSuper = false ->
    interrupts (.failure line fault) := by intros; trivial
  interrupts_outputFull : ∀ {machine : Machine}, sound machine ->
    interrupts (.outputFull machine.output.fullText) := by intros; trivial
  interrupts_outOfFuel : interrupts .outOfFuel := by trivial

namespace Regime

/-- From a sound machine, an evaluation ends on a sound machine, in one of the ways in
which it may.  What is stated holds of its result. -/
def Judged
    {α : Type}
    (regime : Regime)
    (evaluation : Eval α)
    (machine : Machine)
    (stated : Heap -> α -> Prop) : Prop :=
  regime.sound machine ->
    match evaluation machine with
    | .ok result after =>
      machine.Resumes after ∧ regime.leads machine.heap after.heap ∧ regime.sound after ∧
        stated after.heap result
    | .error interruption after =>
      machine.Resumes after ∧ regime.leads machine.heap after.heap ∧ regime.sound after ∧
        regime.interrupts interruption

/-- A heap may take the place of the present one. -/
def Allows (regime : Regime) (machine : Machine) (heap : Heap) : Prop :=
  regime.sound machine ->
    regime.leads machine.heap heap ∧ regime.sound { machine with heap := heap }

variable {α β : Type} {regime : Regime} {machine : Machine}

section Rules

variable {evaluation : Eval α} {stated : Heap -> α -> Prop}

/-- That the machine is sound may be used at once. -/
theorem Judged.of_sound
    (judged : regime.sound machine -> regime.Judged evaluation machine stated) :
    regime.Judged evaluation machine stated :=
  fun sound => judged sound sound

/-- What a judgment says of an evaluation that ends with a result. -/
theorem Judged.ok
    {result : α}
    {after : Machine}
    (judged : regime.Judged evaluation machine stated)
    (sound : regime.sound machine)
    (ended : evaluation machine = .ok result after) :
    machine.Resumes after ∧ regime.leads machine.heap after.heap ∧ regime.sound after ∧
      stated after.heap result := by
  have left := judged sound
  rwa [ended] at left

/-- What a judgment says of an evaluation that is interrupted. -/
theorem Judged.error
    {interruption : Interruption}
    {after : Machine}
    (judged : regime.Judged evaluation machine stated)
    (sound : regime.sound machine)
    (ended : evaluation machine = .error interruption after) :
    machine.Resumes after ∧ regime.leads machine.heap after.heap ∧ regime.sound after ∧
      regime.interrupts interruption := by
  have left := judged sound
  rwa [ended] at left

/-- However an evaluation ends, the machine that it leaves is sound. -/
theorem Judged.left
    (judged : regime.Judged evaluation machine stated)
    (sound : regime.sound machine) :
    machine.Resumes (evaluation.left machine) ∧
      regime.leads machine.heap (evaluation.left machine).heap ∧
      regime.sound (evaluation.left machine) := by
  unfold Eval.left
  cases outcome : evaluation machine with
  | ok result after =>
    obtain ⟨resumes, leads, soundAfter, -⟩ := judged.ok sound outcome
    exact ⟨resumes, leads, soundAfter⟩
  | error interruption after =>
    obtain ⟨resumes, leads, soundAfter, -⟩ := judged.error sound outcome
    exact ⟨resumes, leads, soundAfter⟩

/-- What is stated may be weakened, and that the heap has come from the first one may be
used for it. -/
theorem Judged.imp
    {other : Heap -> α -> Prop}
    (judged : regime.Judged evaluation machine stated)
    (implies : ∀ heap result, regime.leads machine.heap heap -> stated heap result ->
      other heap result) :
    regime.Judged evaluation machine other := by
  intro sound
  have left := judged sound
  cases outcome : evaluation machine with
  | ok result after =>
    rw [outcome] at left
    exact ⟨left.1, left.2.1, left.2.2.1, implies _ _ left.2.1 left.2.2.2⟩
  | error interruption after =>
    rw [outcome] at left
    exact left

/-- A result leaves the machine as it is. -/
theorem judged_pure {result : α} (isStated : stated machine.heap result) :
    regime.Judged (pure result) machine stated :=
  fun sound => ⟨.refl machine, regime.leads_refl _, sound, isStated⟩

/-- An interruption of the regime leaves the machine as it is. -/
theorem judged_throw {interruption : Interruption} (isOne : regime.interrupts interruption) :
    regime.Judged (throw interruption) machine stated :=
  fun sound => ⟨.refl machine, regime.leads_refl _, sound, isOne⟩

/-- A runtime failure is an interruption of every regime, unless it reports a misplaced
super. -/
theorem judged_fail
    {fault : RuntimeFault}
    (line : Nat)
    (ordinary : fault.isMisplacedSuper = false) :
    regime.Judged (Eval.fail line fault) machine stated :=
  judged_throw (regime.interrupts_failure line ordinary)

/-- Two evaluations in a row: the second is judged from the machine and the result of the
first. -/
theorem Judged.bind
    {continuation : α -> Eval β}
    {wanted : Heap -> β -> Prop}
    (first : regime.Judged evaluation machine stated)
    (second : ∀ result after, evaluation machine = .ok result after -> machine.Resumes after ->
      regime.leads machine.heap after.heap -> stated after.heap result ->
        regime.Judged (continuation result) after wanted) :
    regime.Judged (evaluation >>= continuation) machine wanted := by
  intro sound
  cases outcome : evaluation machine with
  | error interruption after =>
    rw [Eval.bind_of_error outcome]
    exact first.error sound outcome
  | ok result middle =>
    obtain ⟨resumes, leads, soundThere, isStated⟩ := first.ok sound outcome
    have rest := second result middle outcome resumes leads isStated soundThere
    rw [Eval.bind_of_ok outcome]
    cases finished : continuation result middle with
    | ok final after =>
      rw [finished] at rest
      exact ⟨resumes.trans rest.1, regime.leads_trans leads rest.2.1, rest.2.2⟩
    | error interruption after =>
      rw [finished] at rest
      exact ⟨resumes.trans rest.1, regime.leads_trans leads rest.2.1, rest.2.2⟩

/-- An evaluation that looks at the machine first. -/
theorem judged_get
    {continuation : Machine -> Eval α}
    (rest : regime.Judged (continuation machine) machine stated) :
    regime.Judged (get >>= continuation) machine stated :=
  rest

/-- Run an evaluation on a machine that is prepared for it, and tidy up behind it, with
the heap as it is. -/
theorem Judged.wrapped
    {prepare : Machine -> Machine}
    {tidy : Machine -> Machine -> Machine}
    {pass : Interruption -> Interruption}
    (inside : regime.Judged evaluation (prepare machine) stated)
    (prepared : regime.sound machine -> regime.sound (prepare machine))
    (sameHeap : (prepare machine).heap = machine.heap)
    (back : ∀ after, (prepare machine).Resumes after -> machine.Resumes (tidy machine after))
    (soundBack : ∀ after, regime.sound after -> regime.sound (tidy machine after))
    (tidied : ∀ after, (tidy machine after).heap = after.heap)
    (passes : ∀ interruption, regime.interrupts interruption ->
      regime.interrupts (pass interruption)) :
    regime.Judged (Eval.wrapped prepare tidy pass evaluation) machine stated := by
  intro sound
  cases outcome : evaluation (prepare machine) with
  | ok result after =>
    obtain ⟨resumes, leads, soundAfter, isStated⟩ := inside.ok (prepared sound) outcome
    rw [sameHeap, ← tidied after] at leads
    rw [← tidied after] at isStated
    rw [Eval.wrapped_of_ok outcome]
    exact ⟨back after resumes, leads, soundBack after soundAfter, isStated⟩
  | error interruption after =>
    obtain ⟨resumes, leads, soundAfter, isOne⟩ := inside.error (prepared sound) outcome
    rw [sameHeap, ← tidied after] at leads
    rw [Eval.wrapped_of_error outcome]
    exact ⟨back after resumes, leads, soundBack after soundAfter, passes interruption isOne⟩

/-- The scope of the caller is taken up again behind an evaluation in another scope. -/
theorem judged_within
    {scope : ScopeRef}
    (inside : regime.Judged evaluation { machine with scope := scope } stated) :
    regime.Judged (Eval.within scope evaluation) machine stated := by
  rw [Eval.within_eq_wrapped]
  refine inside.wrapped (regime.sound_of_eq · rfl rfl rfl rfl) rfl (fun after resumes => ?_)
    (fun _ => (regime.sound_of_eq · rfl rfl rfl rfl)) (fun _ => rfl) fun _ => id
  exact ⟨rfl, resumes.globals, resumes.distances, resumes.callDepth⟩

/-- The depth of the caller is taken up again behind a counted call. -/
theorem judged_asCall
    {line : Nat}
    (inside : regime.Judged evaluation { machine with callDepth := machine.callDepth + 1 }
      stated) :
    regime.Judged (Eval.asCall line evaluation) machine stated := by
  rw [Eval.asCall_eq_wrapped]
  refine inside.wrapped (regime.sound_of_eq · rfl rfl rfl rfl) rfl (fun after resumes => ?_)
    (fun _ => (regime.sound_of_eq · rfl rfl rfl rfl)) (fun _ => rfl)
    fun _ => regime.interrupts_orLine line
  refine ⟨resumes.scope, resumes.globals, resumes.distances, ?_⟩
  dsimp only
  rw [resumes.callDepth]
  exact Nat.add_sub_cancel _ _

end Rules

section Steps

/-- A step on the heap. -/
theorem judged_onHeap
    {step : Heap -> α × Heap}
    {stated : Heap -> α -> Prop}
    (allows : regime.Allows machine (step machine.heap).2)
    (isStated : stated (step machine.heap).2 (step machine.heap).1) :
    regime.Judged (Eval.onHeap step) machine stated :=
  fun sound => ⟨⟨rfl, rfl, rfl, rfl⟩, (allows sound).1, (allows sound).2, isStated⟩

/-- A change of the heap is judged by whether the regime allows it. -/
theorem judged_changeHeap
    {step : Heap -> Heap}
    (allows : regime.Allows machine (step machine.heap)) :
    regime.Judged (Eval.changeHeap step) machine fun _ _ => True :=
  fun sound => ⟨⟨rfl, rfl, rfl, rfl⟩, (allows sound).1, (allows sound).2, trivial⟩

/-- Binding a name in the current scope. -/
theorem judged_define
    {name : String}
    {value : Value}
    (allows : regime.Allows machine (machine.heap.define machine.scope name value)) :
    regime.Judged (Eval.define name value) machine fun _ _ => True :=
  fun sound => ⟨⟨rfl, rfl, rfl, rfl⟩, (allows sound).1, (allows sound).2, trivial⟩

/-- An assignment binds the name anew in the scope that has it. -/
theorem judged_assignFrom
    {scope : ScopeRef}
    {name : Token}
    {value : Value}
    (allows : ∀ place, machine.heap.binder? scope name.lexeme = some place ->
      regime.Allows machine (machine.heap.define place name.lexeme value)) :
    regime.Judged (Eval.assignFrom scope name value) machine fun _ _ => True := by
  intro sound
  rw [Eval.assignFrom_eq]
  cases found : machine.heap.binder? scope name.lexeme with
  | none =>
    exact ⟨.refl machine, regime.leads_refl _, sound, regime.interrupts_failure _ rfl⟩
  | some place =>
    obtain ⟨leads, soundAfter⟩ := allows place found sound
    exact ⟨⟨rfl, rfl, rfl, rfl⟩, leads, soundAfter, trivial⟩

/-- An assignment to a variable binds the name anew in the scope its reference leads to.
-/
theorem judged_assignVariable
    {reference : Reference}
    {value : Value}
    (allows : ∀ place, machine.binder? reference = some place ->
      regime.Allows machine (machine.heap.define place reference.name.lexeme value)) :
    regime.Judged (Eval.assignVariable reference value) machine fun _ _ => True := by
  intro sound
  rw [Eval.assignVariable_eq]
  cases found : machine.binder? reference with
  | none =>
    exact ⟨.refl machine, regime.leads_refl _, sound, regime.interrupts_failure _ rfl⟩
  | some place =>
    obtain ⟨leads, soundAfter⟩ := allows place found sound
    exact ⟨⟨rfl, rfl, rfl, rfl⟩, leads, soundAfter, trivial⟩

/-- What a variable is read as. -/
theorem judged_readVariable
    {stated : Heap -> Value -> Prop}
    (reference : Reference)
    (getAt : ∀ scope distance name,
      stated machine.heap (machine.heap.getAt scope distance name))
    (get : ∀ scope name value, machine.heap.get? scope name = some value ->
      stated machine.heap value) :
    regime.Judged (Eval.readVariable reference) machine stated := by
  intro sound
  unfold Eval.readVariable
  cases machine.distances[reference.id]? with
  | some distance => exact judged_pure (getAt _ _ _) sound
  | none =>
    cases found : machine.heap.get? machine.globals reference.name.lexeme with
    | some value => exact judged_pure (get _ _ _ found) sound
    | none => exact ⟨.refl machine, regime.leads_refl _, sound, regime.interrupts_failure _ rfl⟩

/-- Printing changes the output only. -/
theorem judged_printLine (value : Value) :
    regime.Judged (Eval.printLine value) machine fun _ _ => True := by
  intro sound
  unfold Eval.printLine
  dsimp only
  have resumes : ∀ bytes, machine.Resumes { machine with output := machine.output.keep bytes } :=
    fun _ => ⟨rfl, rfl, rfl, rfl⟩
  have soundAfter : ∀ bytes, regime.sound { machine with output := machine.output.keep bytes } :=
    fun bytes => regime.sound_of_eq sound rfl rfl rfl (machine.output.fullText_keep bytes)
  split
  · rename_i ended
    split at ended <;> cases ended
    exact ⟨resumes _, regime.leads_refl _, soundAfter _, trivial⟩
  · rename_i ended
    split at ended <;> cases ended
    exact ⟨resumes _, regime.leads_refl _, soundAfter _, regime.interrupts_outputFull sound⟩

/-- Reading the clock's next instant changes the clock only. -/
theorem judged_tick : regime.Judged Eval.tick machine fun _ _ => True :=
  fun sound => ⟨⟨rfl, rfl, rfl, rfl⟩, regime.leads_refl _,
    regime.sound_of_eq sound rfl rfl rfl rfl, trivial⟩

/-- Reading the clock gives a number or fails. -/
theorem judged_readClock
    {stated : Heap -> Value -> Prop}
    (number : ∀ heap x, stated heap (.number x)) :
    regime.Judged Eval.readClock machine stated := by
  refine judged_get (judged_tick.bind fun _ _ _ _ _ _ => ?_)
  split
  · exact judged_pure (number _ _)
  · exact judged_fail _ rfl

end Steps

variable (regime)

/-- How machines are kept to a regime is a way to judge evaluations. -/
def judgment : Judgment where
  sound := regime.sound
  leads before after := before.Resumes after ∧ regime.leads before.heap after.heap
  judged := regime.Judged
  sound_moved _ _ sound := regime.sound_of_eq sound rfl rfl rfl rfl
  leads_refl _ := ⟨.refl _, regime.leads_refl _⟩
  leads_trans one other := ⟨one.1.trans other.1, regime.leads_trans one.2 other.2⟩
  judged_of_sound := Judged.of_sound
  judged_ok judged sound ended :=
    have ⟨resumes, leads, soundAfter, isStated⟩ := judged.ok sound ended
    ⟨⟨resumes, leads⟩, soundAfter, isStated⟩
  judged_pure := judged_pure
  judged_bind first second :=
    first.bind fun result after ended resumes leads => second result after ended ⟨resumes, leads⟩
  judged_get _ rest := judged_get rest
  judged_within := judged_within
  judged_asCall := judged_asCall

end Regime

/-- A regime with the tasks that may be begun and with what holds of all values, that
every step on the heap keeps to. -/
structure Invariant extends Regime where
  holds : Heap -> Value -> Prop := fun _ _ => True
  admits : Task -> Machine -> Prop
  admits_begun : ∀ {outer inner : Task} {machine final : Machine},
    admits outer machine -> Begins outer machine inner final -> sound machine -> sound final ->
      leads machine.heap final.heap ->
        machine.Resumes final ∨ Enters outer machine inner final -> admits inner final
  raises : ∀ {fuel line : Nat} {keyword : Reference} {method : Token} {machine : Machine}
    {fault : RuntimeFault}, admits (.evaluate (fuel + 1) (.inherited keyword method)) machine ->
      Eval.readInherited keyword method machine = .error (.failure line fault) machine ->
        interrupts (.failure line fault) := by intros; trivial
  holds_plain : ∀ {value : Value} (heap : Heap), value.isPlain = true -> holds heap value := by
    intros; trivial
  holds_later : ∀ {before after : Heap} {value : Value},
    leads before after -> holds before value -> holds after value := by intros; trivial
  holds_getAt : ∀ {machine : Machine} (scope : ScopeRef) (distance : Nat) (name : String),
    sound machine -> holds machine.heap (machine.heap.getAt scope distance name) := by
    intros; trivial
  holds_get : ∀ {machine : Machine} {scope : ScopeRef} {name : String} {value : Value},
    sound machine -> machine.heap.get? scope name = some value -> holds machine.heap value := by
    intros; trivial
  holds_field : ∀ {machine : Machine} {place : InstanceRef} {object : Instance} {name : String}
    {value : Value}, sound machine -> machine.heap.instance? place = some object ->
      object.fields.get? name = some value -> holds machine.heap value := by intros; trivial
  holds_function : ∀ (heap : Heap) (closure : Closure),
    holds (heap.newFunction closure).2 (.function (heap.newFunction closure).1) := by
    intros; trivial
  holds_object : ∀ (heap : Heap) (place : ClassRef),
    holds (heap.newInstance place).2 (.object (heap.newInstance place).1) := by intros; trivial
  holds_class : ∀ (heap : Heap) (made : Class),
    holds (heap.newClass made).2 (.classObject (heap.newClass made).1) := by intros; trivial
  holds_computed : ∀ {fuel : Nat} {function : Native} {arguments : List Value}
    {machine : Machine} {compute : List Value -> Except String Value} {value : Value},
    admits (.call fuel arguments (.native function)) machine -> sound machine ->
      function.body = .compute compute -> compute arguments = .ok value ->
        holds machine.heap value := by intros; trivial
  allows_fetched : ∀ {task : Task} {before machine : Machine} {method : Closure}
    {receiver : InstanceRef}, admits task before ->
      Fetches task before method receiver machine -> toRegime.Allows machine
        ((machine.heap.bindMethod method receiver).2.newFunction
          (machine.heap.bindMethod method receiver).1).2
  allows_stored : ∀ {machine : Machine} {target : Reference} {value : Expr} {result : Value}
    {place : ScopeRef}, admits (.store target value) machine -> holds machine.heap result ->
      machine.binder? target = some place ->
        toRegime.Allows machine (machine.heap.define place target.name.lexeme result)
  allows_field : ∀ {machine : Machine} {value : Value} (receiver : InstanceRef) (name : String),
    holds machine.heap value -> toRegime.Allows machine (machine.heap.setField receiver name value)
  allows_declared : ∀ {fuel : Nat} {name : Token} {initializer : Option Expr}
    {before machine : Machine} {value : Value},
    admits (.execute (fuel + 1) (.declare name initializer)) before -> before.Resumes machine ->
      leads before.heap machine.heap -> holds machine.heap value ->
        toRegime.Allows machine (machine.heap.define machine.scope name.lexeme value)
  allows_function : ∀ {fuel : Nat} {declaration : FunctionDecl} {machine : Machine},
    admits (.execute (fuel + 1) (.function declaration)) machine -> toRegime.Allows machine
      ((machine.heap.newFunction ⟨declaration, machine.scope, false⟩).2.define machine.scope
        declaration.name.lexeme (.function ⟨machine.heap.functions.size⟩))
  allows_className : ∀ {fuel : Nat} {name : Token} {superclass : Option Reference}
    {functions : List FunctionDecl} {before machine : Machine} {place : ScopeRef} {value : Value},
    admits (.execute (fuel + 1) (.classDecl name superclass functions)) before ->
      before.Resumes machine -> leads before.heap machine.heap -> holds machine.heap value ->
        place = machine.scope ∨ machine.heap.binder? machine.scope name.lexeme = some place ->
          toRegime.Allows machine (machine.heap.define place name.lexeme value)
  allows_superclass : ∀ {fuel : Nat} {name : Token} {reference : Reference}
    {functions : List FunctionDecl} {machine : Machine} {parent : ClassRef},
    admits (.execute (fuel + 1) (.classDecl name (some reference) functions)) machine ->
      holds machine.heap (.classObject parent) -> leads machine.heap (machine.namingHeap name) ->
        toRegime.Allows { machine with heap := machine.namingHeap name }
          (machine.subclassHeap name parent)
  allows_plainClass : ∀ {fuel : Nat} {name : Token} {functions : List FunctionDecl}
    {machine : Machine}, admits (.execute (fuel + 1) (.classDecl name none functions)) machine ->
      leads machine.heap (machine.namingHeap name) ->
        toRegime.Allows { machine with heap := machine.namingHeap name }
          ((machine.namingHeap name).newClass
            ⟨name.lexeme, [Eval.methodTable machine.scope functions]⟩).2
  allows_subclass : ∀ {fuel : Nat} {name : Token} {reference : Reference}
    {functions : List FunctionDecl} {machine : Machine} {parent : ClassRef},
    admits (.execute (fuel + 1) (.classDecl name (some reference) functions)) machine ->
      Eval.readVariable reference machine = .ok (.classObject parent) machine ->
        leads machine.heap (machine.subclassHeap name parent) ->
          toRegime.Allows { machine with heap := machine.subclassHeap name parent }
            ((machine.subclassHeap name parent).newClass ⟨name.lexeme,
              Eval.methodTable ⟨machine.heap.scopes.size⟩ functions ::
                ((machine.heap.class? parent).map (·.lineage)).getD []⟩).2
  allows_block : ∀ (machine : Machine),
    toRegime.Allows machine (machine.heap.newScope (some machine.scope) .empty).2
  allows_parameters : ∀ {machine : Machine} {arguments : List Value} (closure : Closure),
    (∀ value ∈ arguments, holds machine.heap value) ->
      toRegime.Allows machine (machine.heap.newScope (some closure.scope)
        (Eval.bindParameters closure.declaration.parameters arguments)).2
  allows_instance : ∀ {fuel : Nat} {arguments : List Value} {place : ClassRef}
    {initializer : Option Closure} {machine : Machine},
    admits (.call fuel arguments (.ofClass place initializer)) machine ->
      toRegime.Allows machine (machine.heap.newInstance place).2
  allows_receiver : ∀ {machine : Machine} {receiver : InstanceRef} (method : Closure),
    holds machine.heap (.object receiver) ->
      toRegime.Allows machine (machine.heap.bindMethod method receiver).2

namespace Invariant

variable (invariant : Invariant) {machine : Machine} {fuel : Nat}

/-- A method that a task fetches may be bound. -/
theorem judged_bound
    {task : Task}
    {before : Machine}
    {method : Closure}
    {receiver : InstanceRef}
    (admitted : invariant.admits task before)
    (fetches : Fetches task before method receiver machine) :
    invariant.Judged (Eval.bound method receiver) machine invariant.holds :=
  Regime.judged_onHeap (invariant.allows_fetched admitted fetches) (invariant.holds_function _ _)

/-- A property may be read by the task that has evaluated the receiver. -/
theorem judged_readProperty
    {object : Expr}
    {name : Token}
    {before : Machine}
    {receiver : InstanceRef}
    (admitted : invariant.admits (.evaluate (fuel + 1) (.property object name)) before)
    (evaluated : Eval.evaluate fuel object before = .ok (.object receiver) machine) :
    invariant.Judged (Eval.readProperty receiver name) machine invariant.holds := by
  refine .of_sound fun sound => Regime.judged_get ?_
  dsimp only
  cases isInstance : machine.heap.instance? receiver with
  | none => exact Regime.judged_fail _ rfl
  | some found =>
    cases isField : found.fields.get? name.lexeme with
    | some value =>
      simp only [Option.bind_some, isField]
      exact Regime.judged_pure (invariant.holds_field sound isInstance isField)
    | none =>
      simp only [Option.bind_some, isField]
      cases isMethod : machine.heap.method? found.ofClass name.lexeme with
      | none => exact Regime.judged_fail _ rfl
      | some method =>
        exact invariant.judged_bound admitted (.property evaluated isInstance isField isMethod)

/-- A method of the superclass may be read.  If it fails because there is no superclass or
no receiver, it is this task that fails. -/
theorem judged_readInherited
    {keyword : Reference}
    {method : Token}
    (admitted : invariant.admits (.evaluate (fuel + 1) (.inherited keyword method)) machine) :
    invariant.Judged (Eval.readInherited keyword method) machine invariant.holds := by
  have failing : ∀ {line fault}, Eval.readInherited keyword method machine =
      Eval.fail line fault machine ->
        invariant.Judged (Eval.readInherited keyword method) machine invariant.holds := by
    intro line fault failed sound
    rw [failed]
    exact ⟨.refl machine, invariant.leads_refl _, sound, invariant.raises admitted failed⟩
  cases filed : machine.distances[keyword.id]? with
  | none => exact failing (by rw [Eval.readInherited_eq, filed])
  | some distance =>
    by_cases bound : ∃ parent receiver,
        machine.heap.getAt machine.scope distance superclassName = .classObject parent ∧
        machine.heap.getAt machine.scope (distance - 1) selfName = .object receiver
    · obtain ⟨parent, receiver, isParent, isReceiver⟩ := bound
      intro sound
      rw [Eval.readInherited_of_bound filed isParent isReceiver]
      cases isMethod : machine.heap.method? parent method.lexeme with
      | none =>
        exact ⟨.refl machine, invariant.leads_refl _, sound, invariant.interrupts_failure _ rfl⟩
      | some found =>
        exact invariant.judged_bound admitted (.inherited filed isParent isReceiver isMethod) sound
    · exact failing (Eval.readInherited_of_unbound filed (fun parent receiver isParent isReceiver =>
        bound ⟨parent, receiver, isParent, isReceiver⟩) method)

/-- A native function gives a value that holds, or is interrupted with the heap as it was.
-/
theorem judged_callNative
    {function : Native}
    {arguments : List Value}
    (admitted : invariant.admits (.call fuel arguments (.native function)) machine) :
    invariant.Judged (Eval.callNative function arguments) machine invariant.holds := by
  refine .of_sound fun sound => ?_
  unfold Eval.callNative
  split
  · exact Regime.judged_readClock fun heap x => invariant.holds_plain heap rfl
  · rename_i compute isBody
    split
    · rename_i value computed
      exact Regime.judged_pure (invariant.holds_computed admitted sound isBody computed)
    · exact Regime.judged_fail _ rfl

/-- A function declaration keeps an invariant, by what the invariant asks of new closures.
-/
theorem judged_declareFunction
    {declaration : FunctionDecl}
    (admitted : invariant.admits (.execute (fuel + 1) (.function declaration)) machine) :
    invariant.Judged (Eval.declareFunction declaration) machine fun _ _ => True := by
  intro sound
  obtain ⟨leads, soundAfter⟩ := invariant.allows_function admitted sound
  exact ⟨⟨rfl, rfl, rfl, rfl⟩, leads, soundAfter, trivial⟩

/-- A class that may be made is bound to the name that its declaration has bound. -/
theorem judged_makeClass
    {name : Token}
    {superclass : Option Reference}
    {functions : List FunctionDecl}
    {before : Machine}
    {place : ScopeRef}
    {inherited : List (Bindings Closure)}
    (admitted : invariant.admits (.execute (fuel + 1) (.classDecl name superclass functions))
      before)
    (resumes : before.Resumes machine)
    (leads : invariant.leads before.heap machine.heap)
    (allowed : invariant.Allows machine (machine.heap.newClass
      ⟨name.lexeme, Eval.methodTable place functions :: inherited⟩).2) :
    invariant.Judged (Eval.makeClass name functions machine.scope place inherited) machine
      fun _ _ => True := by
  have made : invariant.Judged
      (Eval.onHeap (·.newClass ⟨name.lexeme, Eval.methodTable place functions :: inherited⟩))
      machine fun heap made => invariant.holds heap (.classObject made) :=
    Regime.judged_onHeap allowed (invariant.holds_class _ _)
  refine made.bind fun _ after _ further furtherLeads held => ?_
  refine Regime.judged_assignFrom fun binder found => ?_
  rw [← further.scope] at found
  exact invariant.allows_className admitted (resumes.trans further)
    (invariant.leads_trans leads furtherLeads) held (.inr found)

/-- A superclass is read from a variable, so it holds as every variable's value does. -/
theorem judged_superclassOf (reference : Reference) :
    invariant.Judged (Eval.superclassOf reference) machine fun heap parent =>
      invariant.holds heap (.classObject parent) := by
  refine .of_sound fun sound => (Regime.judged_readVariable reference
    (fun scope distance name => invariant.holds_getAt scope distance name sound)
    fun _ _ _ found => invariant.holds_get sound found).bind fun value _ _ _ _ held => ?_
  cases value with
  | classObject parent => exact Regime.judged_pure held
  | _ => exact Regime.judged_fail _ rfl

/-- A class may be declared. -/
theorem judged_declareClass
    {name : Token}
    {superclass : Option Reference}
    {functions : List FunctionDecl}
    (admitted : invariant.admits (.execute (fuel + 1) (.classDecl name superclass functions))
      machine) :
    invariant.Judged (Eval.declareClass name superclass functions) machine fun _ _ => True := by
  have named : invariant.Judged (Eval.define name.lexeme .null) machine fun _ _ => True :=
    Regime.judged_define (invariant.allows_className admitted (.refl _) (invariant.leads_refl _)
      (invariant.holds_plain _ rfl) (.inl rfl))
  cases superclass with
  | none =>
    rw [Eval.declareClass_none]
    refine named.bind fun _ after isNamed resumes leads _ => Regime.judged_get ?_
    cases isNamed
    exact invariant.judged_makeClass admitted resumes leads
      (invariant.allows_plainClass admitted leads)
  | some reference =>
    rw [Eval.declareClass_some]
    refine (invariant.judged_superclassOf reference).bind fun parent there isParent _ _ held => ?_
    obtain ⟨read, sameMachine⟩ := Eval.readVariable_of_superclassOf isParent
    subst sameMachine
    refine named.bind fun _ after isNamed resumes leads _ => Regime.judged_get ?_
    cases isNamed
    have entered : invariant.Judged (Eval.superclassScope _ parent) _ fun _ _ => True :=
      Regime.judged_onHeap (invariant.allows_superclass admitted held leads) trivial
    refine entered.bind fun place after isEntered further furtherLeads _ => Regime.judged_get ?_
    cases isEntered
    have reached := invariant.leads_trans leads furtherLeads
    have samePlace : (⟨(there.heap.define there.scope name.lexeme .null).scopes.size⟩ :
        ScopeRef) = ⟨there.heap.scopes.size⟩ := by
      simp [Heap.define]
    have allowed := invariant.allows_subclass admitted read reached
    rw [← samePlace] at allowed
    exact invariant.judged_makeClass admitted (resumes.trans further) reached allowed

/-- A field may be given any value that holds. -/
theorem judged_setField
    {value : Value}
    (receiver : InstanceRef)
    (name : String)
    (held : invariant.holds machine.heap value) :
    invariant.Judged (Eval.changeHeap (·.setField receiver name value)) machine
      fun _ _ => True :=
  Regime.judged_changeHeap (invariant.allows_field receiver name held)

/-- A block's scope begins empty. -/
theorem judged_newBlock :
    invariant.Judged (Eval.onHeap (·.newScope (some machine.scope) .empty)) machine
      fun _ _ => True :=
  Regime.judged_onHeap (invariant.allows_block machine) trivial

/-- A call's scope holds the arguments under the names of the parameters. -/
theorem judged_newCall
    {arguments : List Value}
    (closure : Closure)
    (held : ∀ value ∈ arguments, invariant.holds machine.heap value) :
    invariant.Judged (Eval.onHeap (·.newScope (some closure.scope)
      (Eval.bindParameters closure.declaration.parameters arguments))) machine fun _ _ => True :=
  Regime.judged_onHeap (invariant.allows_parameters closure held) trivial

/-- A new instance holds, as its class does. -/
theorem judged_newInstance
    {arguments : List Value}
    {place : ClassRef}
    {initializer : Option Closure}
    (admitted : invariant.admits (.call fuel arguments (.ofClass place initializer)) machine) :
    invariant.Judged (Eval.onHeap (·.newInstance place)) machine fun heap receiver =>
      invariant.holds heap (.object receiver) :=
  Regime.judged_onHeap (invariant.allows_instance admitted) (invariant.holds_object _ _)

/-- Binding a method's receiver makes a scope with one value, which holds. -/
theorem judged_bindMethod
    {receiver : InstanceRef}
    (method : Closure)
    (held : invariant.holds machine.heap (.object receiver)) :
    invariant.Judged (Eval.onHeap (·.bindMethod method receiver)) machine fun _ _ => True :=
  Regime.judged_onHeap (invariant.allows_receiver method held) trivial

/-- An invariant is a contract. -/
def contract : Contract where
  toJudgment := invariant.judgment
  holds := invariant.holds
  admits := invariant.admits
  holds_plain := invariant.holds_plain
  holds_later leads held := invariant.holds_later leads.2 held
  holds_self scope sound := invariant.holds_getAt scope 0 selfName sound
  admits_begun admitted begins sound soundAfter reaches :=
    invariant.admits_begun admitted begins sound soundAfter
      (reaches.elim And.right fun entered => entered.2.2)
      (reaches.imp And.left And.left)
  judged_spent sound :=
    ⟨.refl _, invariant.leads_refl _, sound, invariant.interrupts_outOfFuel⟩
  judged_fail line ordinary sound :=
    ⟨.refl _, invariant.leads_refl _, sound, invariant.interrupts_failure line ordinary⟩
  judged_read reference := .of_sound fun sound => Regime.judged_readVariable reference
    (fun scope distance name => invariant.holds_getAt scope distance name sound)
    fun _ _ _ found => invariant.holds_get sound found
  judged_assign admitted held :=
    Regime.judged_assignVariable fun _ found => invariant.allows_stored admitted held found
  judged_property := invariant.judged_readProperty
  judged_setField := invariant.judged_setField
  judged_inherited := invariant.judged_readInherited
  judged_print := Regime.judged_printLine
  judged_declare admitted leads held :=
    Regime.judged_define (invariant.allows_declared admitted leads.1 leads.2 held)
  judged_function := invariant.judged_declareFunction
  judged_class := invariant.judged_declareClass
  judged_native admitted _ := invariant.judged_callNative admitted
  judged_block := invariant.judged_newBlock
  judged_parameters := invariant.judged_newCall
  judged_instance := invariant.judged_newInstance
  judged_receiver := invariant.judged_bindMethod

/-- Evaluating an expression keeps to an invariant. -/
theorem judged_evaluate
    {value : Expr}
    (admitted : invariant.admits (.evaluate fuel value) machine) :
    invariant.Judged (Eval.evaluate fuel value) machine invariant.holds :=
  invariant.contract.conforms _ _ admitted trivial

/-- Evaluating expressions in order keeps to an invariant. -/
theorem judged_each
    {values : List Expr}
    (admitted : invariant.admits (.each fuel values) machine) :
    invariant.Judged (Eval.each (Eval.evaluate fuel) values) machine fun heap results =>
      ∀ result ∈ results, invariant.holds heap result :=
  invariant.contract.conforms _ _ admitted trivial

/-- Executing a statement keeps to an invariant. -/
theorem judged_execute
    {step : Stmt}
    (admitted : invariant.admits (.execute fuel step) machine) :
    invariant.Judged (Eval.execute fuel step) machine fun heap flow =>
      flow.Returns (invariant.holds heap) :=
  invariant.contract.conforms _ _ admitted trivial

/-- Executing statements in order keeps to an invariant. -/
theorem judged_sequence
    {steps : List Stmt}
    (admitted : invariant.admits (.sequence fuel steps) machine) :
    invariant.Judged (Eval.sequence (Eval.execute fuel) steps) machine fun heap flow =>
      flow.Returns (invariant.holds heap) :=
  invariant.contract.conforms _ _ admitted trivial

/-- Carrying out a call keeps to an invariant. -/
theorem judged_call
    {arguments : List Value}
    {callable : Callable}
    (admitted : invariant.admits (.call fuel arguments callable) machine)
    (held : ∀ value ∈ arguments, invariant.holds machine.heap value) :
    invariant.Judged (Eval.call (Eval.execute fuel) arguments callable) machine
      invariant.holds :=
  invariant.contract.conforms _ _ admitted held

/-- Carrying out a call of a function keeps to an invariant. -/
theorem judged_callClosure
    {closure : Closure}
    {arguments : List Value}
    (admitted : invariant.admits (.callClosure fuel closure arguments) machine)
    (held : ∀ value ∈ arguments, invariant.holds machine.heap value) :
    invariant.Judged (Eval.callClosure (Eval.execute fuel) closure arguments) machine
      invariant.holds :=
  invariant.contract.conforms _ _ admitted held

/-- Carrying out a call whose scope has been made keeps to an invariant. -/
theorem judged_finishCall
    {closure : Closure}
    {scope : ScopeRef}
    (admitted : invariant.admits (.sequence fuel closure.declaration.body)
      { machine with scope := scope }) :
    invariant.Judged (Eval.finishCall (Eval.execute fuel) closure scope) machine
      invariant.holds :=
  invariant.contract.judged_finishCall (invariant.judged_sequence admitted)

/-- Executing a statement at the top level keeps to an invariant. -/
theorem judged_executeTopLevel
    {step : Stmt}
    (echo : Bool)
    (admitted : invariant.admits (Session.topLevelTask fuel step) machine) :
    invariant.Judged (Session.executeTopLevel fuel echo step) machine fun _ _ => True :=
  invariant.contract.judged_executeTopLevel echo admitted

section Tasks

variable {task inner : Task} {final : Machine}

/-- A task that has been carried out has kept to the invariant. -/
theorem ends
    (ends : task.Ends machine final)
    (admitted : invariant.admits task machine)
    (sound : invariant.sound machine) :
    machine.Resumes final ∧ invariant.leads machine.heap final.heap ∧ invariant.sound final := by
  cases ends with
  | evaluate ended =>
    obtain ⟨resumes, leads, soundAfter, -⟩ := (invariant.judged_evaluate admitted).ok sound ended
    exact ⟨resumes, leads, soundAfter⟩
  | each ended =>
    obtain ⟨resumes, leads, soundAfter, -⟩ := (invariant.judged_each admitted).ok sound ended
    exact ⟨resumes, leads, soundAfter⟩
  | execute ended =>
    obtain ⟨resumes, leads, soundAfter, -⟩ := (invariant.judged_execute admitted).ok sound ended
    exact ⟨resumes, leads, soundAfter⟩

/-- Wherever a task gets to, the invariant has been kept. -/
theorem getsTo
    (getsTo : task.GetsTo machine final)
    (admitted : invariant.admits task machine)
    (sound : invariant.sound machine) :
    machine.Resumes final ∧ invariant.leads machine.heap final.heap ∧ invariant.sound final := by
  induction getsTo with
  | start => exact ⟨.refl machine, invariant.leads_refl _, sound⟩
  | further _ begins done inductionHypothesis =>
    obtain ⟨resumes, leads, soundThere⟩ := inductionHypothesis
    have innerAdmitted :=
      invariant.admits_begun admitted begins sound soundThere leads (.inl resumes)
    obtain ⟨resumesAfter, further, soundAfter⟩ := invariant.ends done innerAdmitted soundThere
    exact ⟨resumes.trans resumesAfter, invariant.leads_trans leads further, soundAfter⟩

/-- What a task sets up for another one keeps the invariant. -/
theorem enters
    (enters : Enters task machine inner final)
    (admitted : invariant.admits task machine)
    (passes : task.Passes (invariant.holds machine.heap))
    (sound : invariant.sound machine) :
    invariant.leads machine.heap final.heap ∧ invariant.sound final := by
  cases enters with
  | block =>
    obtain ⟨leads, soundAfter⟩ := invariant.allows_block machine sound
    exact ⟨leads, invariant.sound_of_eq soundAfter rfl rfl rfl rfl⟩
  | call => exact ⟨invariant.leads_refl _, invariant.sound_of_eq sound rfl rfl rfl rfl⟩
  | setUp =>
    obtain ⟨leads, soundThere⟩ := invariant.allows_instance admitted sound
    obtain ⟨further, soundAfter⟩ :=
      invariant.allows_receiver _ (invariant.holds_object _ _) soundThere
    exact ⟨invariant.leads_trans leads further, invariant.sound_of_eq soundAfter rfl rfl rfl rfl⟩
  | body =>
    obtain ⟨leads, soundAfter⟩ := invariant.allows_parameters _ passes sound
    exact ⟨leads, invariant.sound_of_eq soundAfter rfl rfl rfl rfl⟩

/-- What a task begins may be begun there. -/
theorem begun
    (begins : Begins task machine inner final)
    (admitted : invariant.admits task machine)
    (passes : task.Passes (invariant.holds machine.heap))
    (sound : invariant.sound machine) :
    invariant.leads machine.heap final.heap ∧ invariant.sound final ∧
      invariant.admits inner final ∧ inner.Passes (invariant.holds final.heap) := by
  have reached : invariant.leads machine.heap final.heap ∧ invariant.sound final ∧
      (machine.Resumes final ∨ Enters task machine inner final) := by
    rcases begins.getsTo_or_enters with getsTo | enters
    · obtain ⟨resumes, leads, soundAfter⟩ := invariant.getsTo getsTo admitted sound
      exact ⟨leads, soundAfter, .inl resumes⟩
    · obtain ⟨leads, soundAfter⟩ := invariant.enters enters admitted passes sound
      exact ⟨leads, soundAfter, .inr enters⟩
  obtain ⟨leads, soundAfter, place⟩ := reached
  refine ⟨leads, soundAfter,
    invariant.admits_begun admitted begins sound soundAfter leads place, ?_⟩
  cases begins with
  | @invoke _ _ _ _ _ _ middle _ _ first second =>
    have atCallee : invariant.admits _ machine :=
      invariant.admits_begun admitted .callee sound sound (invariant.leads_refl _)
        (.inl (.refl _))
    obtain ⟨resumes, further, soundThere⟩ := invariant.ends (.evaluate first) atCallee sound
    have atArguments : invariant.admits _ middle :=
      invariant.admits_begun admitted (.arguments first) sound soundThere further (.inl resumes)
    exact ((invariant.judged_each atArguments).ok soundThere second).2.2.2
  | call | callFunction => exact passes
  | setUp => exact fun value member => invariant.holds_later leads (passes value member)
  | _ => trivial

/-- So may whatever a task gets to. -/
theorem visited
    (visits : task.Visits machine inner final)
    (admitted : invariant.admits task machine)
    (passes : task.Passes (invariant.holds machine.heap))
    (sound : invariant.sound machine) :
    invariant.leads machine.heap final.heap ∧ invariant.sound final ∧
      invariant.admits inner final ∧ inner.Passes (invariant.holds final.heap) := by
  induction visits with
  | start => exact ⟨invariant.leads_refl _, sound, admitted, passes⟩
  | further _ begins inductionHypothesis =>
    obtain ⟨leads, soundThere, outerAdmitted, outerPasses⟩ := inductionHypothesis
    obtain ⟨further, rest⟩ := invariant.begun begins outerAdmitted outerPasses soundThere
    exact ⟨invariant.leads_trans leads further, rest⟩

end Tasks

section Programs

variable
  {echo : Bool}
  {program : List Stmt}
  (admitted : ∀ step ∈ program, ∀ machine,
    invariant.admits (Session.topLevelTask fuel step) machine)
  (sound : invariant.sound machine)

include admitted sound

/-- Interpreting a program keeps to an invariant. -/
theorem interpreted (executed : Nat) :
    machine.Resumes (Session.interpret fuel echo program executed machine).2.2 ∧
      invariant.leads machine.heap (Session.interpret fuel echo program executed machine).2.2.heap ∧
      invariant.sound (Session.interpret fuel echo program executed machine).2.2 ∧
      ∀ interruption ∈ (Session.interpret fuel echo program executed machine).2.1,
        invariant.interrupts interruption := by
  induction program generalizing executed machine with
  | nil => exact ⟨.refl machine, invariant.leads_refl _, sound, nofun⟩
  | cons first rest inductionHypothesis =>
    have judged : invariant.Judged (Session.executeTopLevel fuel echo first) machine _ :=
      invariant.judged_executeTopLevel echo (admitted first List.mem_cons_self machine)
    rw [Session.interpret]
    cases outcome : Session.executeTopLevel fuel echo first machine with
    | error interruption after =>
      obtain ⟨resumes, leads, soundAfter, interrupts⟩ := judged.error sound outcome
      refine ⟨resumes, leads, soundAfter, fun other isOne => ?_⟩
      cases isOne
      exact interrupts
    | ok result after =>
      obtain ⟨resumes, leads, soundAfter, -⟩ := judged.ok sound outcome
      obtain ⟨furtherResumes, further, rest⟩ := inductionHypothesis
        (fun step member => admitted step (List.mem_cons_of_mem _ member)) soundAfter
        (executed + 1)
      exact ⟨resumes.trans furtherResumes, invariant.leads_trans leads further, rest⟩

/-- So does whatever interpreting a program gets to. -/
theorem visitedIn
    {task : Task}
    {final : Machine}
    (visits : Session.Visits fuel echo program machine task final) :
    invariant.leads machine.heap final.heap ∧ invariant.sound final ∧
      invariant.admits task final ∧ task.Passes (invariant.holds final.heap) := by
  induction visits with
  | @first first _ _ _ _ visits =>
    refine invariant.visited visits (admitted first List.mem_cons_self _) ?_ sound
    cases first <;> trivial
  | @later first _ machine _ _ _ done _ inductionHypothesis =>
    have judged :=
      invariant.judged_executeTopLevel echo (admitted first List.mem_cons_self machine)
    obtain ⟨-, leads, soundThere, -⟩ := judged.ok sound done
    obtain ⟨further, rest⟩ := inductionHypothesis
      (fun step member => admitted step (List.mem_cons_of_mem _ member)) soundThere
    exact ⟨invariant.leads_trans leads further, rest⟩

end Programs

end Invariant

end TreeWalk
