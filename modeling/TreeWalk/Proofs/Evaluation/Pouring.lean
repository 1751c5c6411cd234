import TreeWalk.Proofs.Evaluation.Contracts

/-!
# Evaluation with another output

The output is the one part of the machine that an evaluation only adds to and
never looks at.  So an evaluation does the same whatever output it is given, as
long as there is room for the bytes that it writes.  If there is not, it is
interrupted at a point that depends on nothing but the room, and the output is
filled up with the first of these bytes.
-/

namespace TreeWalk

/-- What an evaluation has come to, on a machine that writes to another
output. -/
def Eval.redirect
    {α : Type}
    (output : Output) :
    EStateM.Result Interruption Machine α -> EStateM.Result Interruption Machine α
  | .ok result after => .ok result (after.writingTo output)
  | .error interruption after => .error interruption (after.writingTo output)

/-- On a machine with an unlimited output, an evaluation writes some bytes.  With
any other output that has room for them it ends in the same way.  Without room for
them it is interrupted, on a machine that only the room decides. -/
structure Poured {α : Type} (evaluation : Eval α) (machine : Machine) (bytes : ByteArray) :
    Prop where
  written : (evaluation.left machine).output = machine.output.keep bytes
  ample : ∀ output : Output, output.HasRoom bytes.size ->
    evaluation (machine.writingTo output) = Eval.redirect (output.keep bytes) (evaluation machine)
  scant : ∀ room < bytes.size, ∃ stopped : Machine, ∀ output : Output,
    output.room? = some room ->
      evaluation (machine.writingTo output) =
        .error (.outputFull output.fullText) (stopped.writingTo (output.keep bytes))

/-- What an evaluation does depends on the output only by the room that there
is. -/
def Pours {α : Type} (evaluation : Eval α) : Prop :=
  ∀ machine : Machine, machine.output.capacity = none -> ∃ bytes, Poured evaluation machine bytes

/-- An evaluation has nothing to do with the output. -/
def Silent {α : Type} (evaluation : Eval α) : Prop :=
  ∀ (machine : Machine) (output : Output),
    evaluation (machine.writingTo output) = Eval.redirect output (evaluation machine)

section Rules

variable {α β : Type} {evaluation : Eval α} {continuation : α -> Eval β}

/-- A silent evaluation leaves the output as it was, however it ends. -/
theorem Silent.output_left (silent : Silent evaluation) (machine : Machine) :
    (evaluation.left machine).output = machine.output := by
  have same := silent machine machine.output
  rw [Machine.writingTo_self] at same
  unfold Eval.left
  rw [same]
  cases evaluation machine <;> rfl

/-- A silent evaluation writes no bytes. -/
theorem Silent.poured (silent : Silent evaluation) (machine : Machine) :
    Poured evaluation machine .empty where
  written := by rw [silent.output_left, Output.keep_empty]
  ample output _ := by rw [silent, Output.keep_empty]
  scant room exceeded := absurd exceeded (Nat.not_lt_zero room)

theorem silent_pure (result : α) : Silent (pure result) :=
  fun _ _ => rfl

theorem silent_throw (interruption : Interruption) : Silent (throw interruption : Eval α) :=
  fun _ _ => rfl

/-- A runtime failure writes nothing. -/
theorem silent_fail (line : Nat) (fault : RuntimeFault) : Silent (Eval.fail line fault : Eval α) :=
  fun _ _ => rfl

theorem silent_onHeap (step : Heap -> α × Heap) : Silent (Eval.onHeap step) :=
  fun _ _ => rfl

/-- Two silent evaluations in a row are silent. -/
theorem Silent.bind
    (first : Silent evaluation)
    (second : ∀ result, Silent (continuation result)) :
    Silent (evaluation >>= continuation) := by
  intro machine output
  have redirected := first machine output
  cases ended : evaluation machine with
  | ok result middle =>
    rw [ended] at redirected
    rw [Eval.bind_of_ok redirected, Eval.bind_of_ok ended, second]
  | error interruption after =>
    rw [ended] at redirected
    rw [Eval.bind_of_error redirected, Eval.bind_of_error ended, Eval.redirect]

/-- An evaluation that looks at the machine first, but not at its output. -/
theorem silent_get
    {continuation : Machine -> Eval β}
    (blind : ∀ machine output, continuation (machine.writingTo output) = continuation machine)
    (rest : ∀ machine, Silent (continuation machine)) :
    Silent (get >>= continuation) := by
  intro machine output
  change continuation (machine.writingTo output) (machine.writingTo output) =
    Eval.redirect output (continuation machine machine)
  rw [blind, rest]

/-- An evaluation that looks at the machine first, but not at its output, pours out what
it goes on to. -/
theorem poured_get
    {continuation : Machine -> Eval β}
    {machine : Machine}
    {bytes : ByteArray}
    (blind : ∀ output, continuation (machine.writingTo output) = continuation machine)
    (poured : Poured (continuation machine) machine bytes) :
    Poured (get >>= continuation) machine bytes := by
  have same : ∀ output, (get >>= continuation) (machine.writingTo output) =
      continuation machine (machine.writingTo output) :=
    fun output => congrFun (blind output) (machine.writingTo output)
  refine ⟨poured.written, fun output ample => ?_, fun room exceeded => ?_⟩
  · rw [same]
    exact poured.ample output ample
  · obtain ⟨stopped, stops⟩ := poured.scant room exceeded
    refine ⟨stopped, fun output limited => ?_⟩
    rw [same]
    exact stops output limited

/-- The bytes of the second evaluation come behind those of the first one. -/
theorem Poured.bind_of_ok
    {machine middle : Machine}
    {result : α}
    {one other : ByteArray}
    (first : Poured evaluation machine one)
    (ended : evaluation machine = .ok result middle)
    (second : Poured (continuation result) middle other) :
    Poured (evaluation >>= continuation) machine (one ++ other) := by
  have isMiddle : middle.output = machine.output.keep one := by
    have written := first.written
    rwa [Eval.left, ended] at written
  have goesOn : ∀ output : Output, output.HasRoom one.size ->
      (evaluation >>= continuation) (machine.writingTo output) =
        continuation result (middle.writingTo (output.keep one)) := by
    intro output ample
    have redirected := first.ample output ample
    rw [ended] at redirected
    exact Eval.bind_of_ok redirected _
  refine ⟨?_, fun output ample => ?_, fun room exceeded => ?_⟩
  · rw [Eval.left_bind_of_ok ended, second.written, isMiddle, Output.keep_keep]
  · obtain ⟨ampleFirst, ampleSecond⟩ := Output.hasRoom_append.mp ample
    rw [goesOn output ampleFirst, second.ample _ ampleSecond, Output.keep_keep,
      Eval.bind_of_ok ended]
  · rw [ByteArray.size_append] at exceeded
    -- The room gives out in the first evaluation, or what it leaves does in the second.
    by_cases early : room < one.size
    · obtain ⟨stopped, stops⟩ := first.scant room early
      refine ⟨stopped, fun output limited => ?_⟩
      have isFull : ¬ output.HasRoom one.size := by
        rw [Output.hasRoom_iff limited]
        omega
      rw [Eval.bind_of_error (stops output limited), Output.keep_append_of_not_hasRoom isFull]
    · obtain ⟨stopped, stops⟩ := second.scant (room - one.size) (by omega)
      refine ⟨stopped, fun output limited => ?_⟩
      have ample : output.HasRoom one.size := by
        rw [Output.hasRoom_iff limited]
        omega
      rw [goesOn output ample, stops _ (by simp [Output.room?_keep, limited]), Output.keep_keep,
        Output.fullText_keep]

/-- An evaluation that is interrupted has written all that is written when another should
follow. -/
theorem Poured.bind_of_error
    {machine after : Machine}
    {interruption : Interruption}
    {bytes : ByteArray}
    (first : Poured evaluation machine bytes)
    (ended : evaluation machine = .error interruption after) :
    Poured (evaluation >>= continuation) machine bytes := by
  refine ⟨?_, fun output ample => ?_, fun room exceeded => ?_⟩
  · have written := first.written
    rw [Eval.left, ended] at written
    rwa [Eval.left_bind_of_error ended]
  · have redirected := first.ample output ample
    rw [ended] at redirected
    rw [Eval.bind_of_error redirected, Eval.bind_of_error ended, Eval.redirect]
  · obtain ⟨stopped, stops⟩ := first.scant room exceeded
    exact ⟨stopped, fun output limited => Eval.bind_of_error (stops output limited) _⟩

/-- Run an evaluation on a machine that is prepared for it, and tidy up behind it, with
the output left alone. -/
theorem Poured.wrapped
    {prepare : Machine -> Machine}
    {tidy : Machine -> Machine -> Machine}
    {pass : Interruption -> Interruption}
    {machine : Machine}
    {bytes : ByteArray}
    (poured : Poured evaluation (prepare machine) bytes)
    (prepares : ∀ output, prepare (machine.writingTo output) = (prepare machine).writingTo output)
    (tidies : ∀ after output other,
      tidy (machine.writingTo output) (after.writingTo other) =
        (tidy machine after).writingTo other)
    (passes : ∀ text, pass (.outputFull text) = .outputFull text) :
    Poured (Eval.wrapped prepare tidy pass evaluation) machine bytes := by
  have outputPrepared : (prepare machine).output = machine.output := by
    have prepared := prepares machine.output
    rw [Machine.writingTo_self] at prepared
    rw [prepared, Machine.output_writingTo]
  have outputTidied : ∀ after, (tidy machine after).output = after.output := by
    intro after
    have tidied := tidies after machine.output after.output
    rw [Machine.writingTo_self, Machine.writingTo_self] at tidied
    rw [tidied, Machine.output_writingTo]
  refine ⟨?_, fun output ample => ?_, fun room exceeded => ?_⟩
  · have written := poured.written
    rw [outputPrepared] at written
    rw [← written, Eval.left_wrapped]
    exact outputTidied _
  · rw [Eval.wrapped, prepares, poured.ample output ample, Eval.wrapped]
    cases evaluation (prepare machine) <;> simp [Eval.redirect, tidies]
  · obtain ⟨stopped, stops⟩ := poured.scant room exceeded
    refine ⟨tidy machine stopped, fun output limited => ?_⟩
    rw [Eval.wrapped, prepares, stops output limited]
    simp [tidies, passes]

end Rules

/-- The text of a value and a line feed, as bytes. -/
def Heap.line (heap : Heap) (value : Value) : ByteArray :=
  (heap.display value ++ "\n").toUTF8

/-- A printed line has at least its line feed. -/
theorem Heap.size_line_pos (heap : Heap) (value : Value) : 0 < (heap.line value).size := by
  have lineFeed : "\n".utf8ByteSize = 1 := by decide
  simp only [line, String.toUTF8_eq_toByteArray, String.size_toByteArray,
    String.utf8ByteSize_append, lineFeed]
  omega

/-- With room for the line, printing it succeeds and keeps all of it. -/
theorem Eval.printLine_of_hasRoom
    {machine : Machine}
    {value : Value}
    (ample : machine.output.HasRoom (machine.heap.line value).size) :
    Eval.printLine value machine =
      .ok () (machine.writingTo (machine.output.keep (machine.heap.line value))) :=
  if_pos ((Output.admits_iff_hasRoom (machine.heap.size_line_pos value)).mpr ample)

/-- Without room for the line, printing it keeps what fits and is interrupted by the
sink's error. -/
theorem Eval.printLine_of_not_hasRoom
    {machine : Machine}
    {value : Value}
    (scant : ¬ machine.output.HasRoom (machine.heap.line value).size) :
    Eval.printLine value machine =
      .error (.outputFull machine.output.fullText)
        (machine.writingTo (machine.output.keep (machine.heap.line value))) :=
  if_neg fun admitted =>
    scant ((Output.admits_iff_hasRoom (machine.heap.size_line_pos value)).mp admitted)

/-- Printing a value writes its line. -/
theorem poured_printLine {machine : Machine} (unlimited : machine.output.capacity = none)
    (value : Value) :
    Poured (Eval.printLine value) machine (machine.heap.line value) := by
  have here := Eval.printLine_of_hasRoom
    (Output.hasRoom_of_unlimited unlimited (machine.heap.line value).size)
  refine ⟨?_, fun output ample => ?_, fun room exceeded => ⟨machine, fun output limited => ?_⟩⟩
  · rw [Eval.left, here]
    rfl
  · have there : Eval.printLine value (machine.writingTo output) = _ :=
      Eval.printLine_of_hasRoom ample
    rw [here, there]
    rfl
  · apply Eval.printLine_of_not_hasRoom
    simp only [Machine.output_writingTo, Machine.heap_writingTo, Output.hasRoom_iff limited]
    omega

theorem silent_changeHeap (step : Heap -> Heap) : Silent (Eval.changeHeap step) :=
  fun _ _ => rfl

theorem silent_define (name : String) (value : Value) : Silent (Eval.define name value) :=
  fun _ _ => rfl

theorem silent_readVariable (reference : Reference) : Silent (Eval.readVariable reference) := by
  intro machine output
  unfold Eval.readVariable Machine.writingTo
  dsimp only
  split
  · rfl
  · split <;> rfl

theorem silent_assignFrom (scope : ScopeRef) (name : Token) (value : Value) :
    Silent (Eval.assignFrom scope name value) := by
  intro machine output
  rw [Eval.assignFrom_eq, Eval.assignFrom_eq, Machine.heap_writingTo]
  split <;> rfl

theorem silent_assignVariable (reference : Reference) (value : Value) :
    Silent (Eval.assignVariable reference value) := by
  intro machine output
  rw [Eval.assignVariable_eq, Eval.assignVariable_eq]
  rw [show (machine.writingTo output).binder? reference = machine.binder? reference from rfl]
  split <;> rfl

theorem silent_bound (method : Closure) (receiver : InstanceRef) :
    Silent (Eval.bound method receiver) :=
  silent_onHeap _

theorem silent_readProperty (receiver : InstanceRef) (name : Token) :
    Silent (Eval.readProperty receiver name) := by
  refine silent_get (fun _ _ => rfl) fun machine => ?_
  dsimp only
  split
  · exact silent_pure _
  · split
    · exact silent_bound _ receiver
    · exact silent_fail _ _

theorem silent_readInherited (keyword : Reference) (method : Token) :
    Silent (Eval.readInherited keyword method) := by
  refine silent_get (fun _ _ => rfl) fun machine => ?_
  split
  · exact silent_fail _ _
  · split
    · split
      · exact silent_bound _ _
      · exact silent_fail _ _
    · exact silent_fail _ _

theorem silent_readClock : Silent Eval.readClock := by
  intro machine output
  rw [Eval.readClock_eq, Eval.readClock_eq]
  rw [show (machine.writingTo output).clock = machine.clock from rfl]
  split <;> rfl

/-- No native function writes. -/
theorem silent_callNative (native : Native) (arguments : List Value) :
    Silent (Eval.callNative native arguments) := by
  unfold Eval.callNative
  split
  · exact silent_readClock
  · split
    · exact silent_pure _
    · exact silent_fail _ _

theorem silent_declareFunction (declaration : FunctionDecl) :
    Silent (Eval.declareFunction declaration) :=
  fun _ _ => rfl

theorem silent_superclassOf (reference : Reference) : Silent (Eval.superclassOf reference) := by
  refine (silent_readVariable reference).bind fun value => ?_
  split
  · exact silent_pure _
  · exact silent_fail _ _

theorem silent_makeClass
    (name : Token)
    (methods : List FunctionDecl)
    (current place : ScopeRef)
    (inherited : List (Bindings Closure)) :
    Silent (Eval.makeClass name methods current place inherited) :=
  (silent_onHeap _).bind fun _ => silent_assignFrom _ _ _

theorem silent_declareClassUnder
    (name : Token)
    (methods : List FunctionDecl)
    (parent : Option ClassRef) :
    Silent (Eval.declareClassUnder name methods parent) := by
  refine (silent_define _ _).bind fun _ => silent_get (fun _ _ => rfl) fun machine => ?_
  cases parent with
  | none => exact silent_makeClass _ _ _ _ _
  | some parent =>
    exact (silent_onHeap _).bind fun _ => silent_get (fun _ _ => rfl) fun _ =>
      silent_makeClass _ _ _ _ _

theorem silent_declareClass
    (name : Token)
    (superclass : Option Reference)
    (methods : List FunctionDecl) :
    Silent (Eval.declareClass name superclass methods) := by
  cases superclass with
  | none => exact silent_declareClassUnder name methods none
  | some reference =>
    rw [Eval.declareClass_some]
    exact (silent_superclassOf reference).bind fun parent =>
      silent_declareClassUnder name methods (some parent)

/-- To judge what evaluations pour out, on machines with an unlimited output. -/
def pouring : Judgment where
  sound machine := machine.output.capacity = none
  leads _ _ := True
  judged evaluation machine stated := machine.output.capacity = none ->
    (∃ bytes, Poured evaluation machine bytes) ∧
      ∀ result after, evaluation machine = .ok result after -> stated after.heap result
  sound_moved _ _ unlimited := unlimited
  leads_refl _ := trivial
  leads_trans _ _ := trivial
  judged_of_sound judged unlimited := judged unlimited unlimited
  judged_ok := by
    intro α evaluation machine after result stated judged unlimited ended
    obtain ⟨⟨bytes, poured⟩, isStated⟩ := judged unlimited
    have written := poured.written
    rw [Eval.left_of_ok ended] at written
    exact ⟨trivial, by simp [written, unlimited], isStated result after ended⟩
  judged_pure isStated _ := by
    refine ⟨⟨.empty, (silent_pure _).poured _⟩, fun result after ended => ?_⟩
    cases ended
    exact isStated
  judged_bind := by
    intro α β evaluation continuation machine between stated first second unlimited
    obtain ⟨⟨one, poured⟩, isBetween⟩ := first unlimited
    cases ended : evaluation machine with
    | error interruption after =>
      refine ⟨⟨one, poured.bind_of_error ended⟩, fun result last done => ?_⟩
      rw [Eval.bind_of_error ended] at done
      cases done
    | ok result middle =>
      have written := poured.written
      rw [Eval.left_of_ok ended] at written
      have stillUnlimited : middle.output.capacity = none := by simp [written, unlimited]
      obtain ⟨⟨other, further⟩, isStated⟩ :=
        second result middle ended trivial (isBetween result middle ended) stillUnlimited
      refine ⟨⟨one ++ other, poured.bind_of_ok ended further⟩, fun final last done => ?_⟩
      rw [Eval.bind_of_ok ended] at done
      exact isStated final last done
  judged_get blind rest unlimited := by
    obtain ⟨⟨bytes, poured⟩, isStated⟩ := rest unlimited
    exact ⟨⟨bytes, poured_get blind poured⟩, isStated⟩
  judged_within := by
    intro α body machine scope stated inside unlimited
    obtain ⟨⟨bytes, poured⟩, isStated⟩ := inside unlimited
    rw [Eval.within_eq_wrapped]
    refine ⟨⟨bytes, poured.wrapped (fun _ => rfl) (fun _ _ _ => rfl) fun _ => rfl⟩,
      fun result after ended => ?_⟩
    obtain ⟨middle, done, rfl⟩ := Eval.wrapped_eq_ok ended
    exact isStated result middle done
  judged_asCall := by
    intro α body machine line stated inside unlimited
    obtain ⟨⟨bytes, poured⟩, isStated⟩ := inside unlimited
    rw [Eval.asCall_eq_wrapped]
    refine ⟨⟨bytes, poured.wrapped (fun _ => rfl) (fun _ _ _ => rfl) fun _ => rfl⟩,
      fun result after ended => ?_⟩
    obtain ⟨middle, done, rfl⟩ := Eval.wrapped_eq_ok ended
    exact isStated result middle done

/-- A silent evaluation pours nothing, which is all that the regime of the output asks. -/
theorem Silent.judged
    {α : Type}
    {evaluation : Eval α}
    {stated : Heap -> α -> Prop}
    (silent : Silent evaluation)
    (always : ∀ heap result, stated heap result)
    (machine : Machine) :
    pouring.judged evaluation machine stated :=
  fun _ => ⟨⟨.empty, silent.poured machine⟩, fun result after _ => always after.heap result⟩

/-- Evaluation pours out what is printed, and nothing else. -/
def pouringContract : Contract where
  toJudgment := pouring
  holds _ _ := True
  admits _ _ := True
  holds_plain _ _ := trivial
  holds_later _ _ := trivial
  holds_self _ _ := trivial
  admits_begun _ _ _ _ _ := trivial
  judged_spent := fun _ => ⟨⟨.empty, (silent_throw _).poured _⟩, nofun⟩
  judged_fail _ _ := fun _ => ⟨⟨.empty, (silent_fail _ _).poured _⟩, nofun⟩
  judged_read reference := (silent_readVariable reference).judged (fun _ _ => trivial) _
  judged_assign _ _ := (silent_assignVariable _ _).judged (fun _ _ => trivial) _
  judged_property _ _ := (silent_readProperty _ _).judged (fun _ _ => trivial) _
  judged_setField _ _ _ := (silent_changeHeap _).judged (fun _ _ => trivial) _
  judged_inherited _ := (silent_readInherited _ _).judged (fun _ _ => trivial) _
  judged_print value unlimited := ⟨⟨_, poured_printLine unlimited value⟩, fun _ _ _ => trivial⟩
  judged_declare _ _ _ := (silent_define _ _).judged (fun _ _ => trivial) _
  judged_function _ := (silent_declareFunction _).judged (fun _ _ => trivial) _
  judged_class _ := (silent_declareClass _ _ _).judged (fun _ _ => trivial) _
  judged_native _ _ := (silent_callNative _ _).judged (fun _ _ => trivial) _
  judged_block := (silent_onHeap _).judged (fun _ _ => trivial) _
  judged_parameters _ _ := (silent_onHeap _).judged (fun _ _ => trivial) _
  judged_instance _ := (silent_onHeap _).judged (fun _ _ => trivial) _
  judged_receiver _ _ := (silent_onHeap _).judged (fun _ _ => trivial) _

/-! What evaluating and executing do depends on the output only by the room that there is,
whatever the fuel. -/

/-- An expression pours the bytes it writes into whatever room there is. -/
theorem pours_evaluate (fuel : Nat) (value : Expr) : Pours (Eval.evaluate fuel value) :=
  fun machine unlimited =>
    (pouringContract.conforms (.evaluate fuel value) machine trivial trivial unlimited).1

/-- Arguments in order pour the bytes they write into whatever room there is. -/
theorem pours_each (fuel : Nat) (values : List Expr) :
    Pours (Eval.each (Eval.evaluate fuel) values) :=
  fun machine unlimited =>
    (pouringContract.conforms (.each fuel values) machine trivial trivial unlimited).1

/-- A statement pours the bytes it writes into whatever room there is. -/
theorem pours_execute (fuel : Nat) (step : Stmt) : Pours (Eval.execute fuel step) :=
  fun machine unlimited =>
    (pouringContract.conforms (.execute fuel step) machine trivial trivial unlimited).1

/-- A top-level statement pours its bytes and the line of its echo into whatever room
there is. -/
theorem pours_executeTopLevel (fuel : Nat) (echo : Bool) (step : Stmt) :
    Pours (Session.executeTopLevel fuel echo step) :=
  fun _ unlimited => (pouringContract.judged_executeTopLevel echo trivial unlimited).1

end TreeWalk
