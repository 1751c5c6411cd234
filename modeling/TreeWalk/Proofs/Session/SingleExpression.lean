import TreeWalk.Proofs.Evaluation.Pouring
import TreeWalk.Proofs.Evaluation.Settling
import TreeWalk.Proofs.Grammar.Leaves
import TreeWalk.Proofs.Parse.ErrorPositions
import TreeWalk.Proofs.Parse.Room
import TreeWalk.Proofs.Scan.Outlook
import TreeWalk.Proofs.Session.History

/-!
# Single expressions

An expression can be evaluated by itself, without name resolution, or printed by a
statement that is run in a session.  Main statement: on a fresh machine the two come to
the same, unless the expression is so deep that a statement around it is too deep, or
needs a class around it.
-/

namespace TreeWalk

/-- The text of a statement that prints an expression.  It ends on a line of its own,
because the text of the expression may end in a comment. -/
def printing (source : String) : String :=
  "print " ++ source ++ "\n;"

theorem printing_eq (source : String) :
    printing source = "print " ++ source ++ "\n" ++ ";" := by
  have ending : "\n;" = "\n" ++ ";" := rfl
  rw [printing, ending, ← String.append_assoc]

/-- In front of a text the keyword and a blank are cut off. -/
theorem Piece.cut_print (text : List Char) :
    cut ("print ".toList ++ text) =
      ⟨"print".toList, .token (.keyword .printWord)⟩ :: ⟨[' '], .blank⟩ :: cut text := by
  have word : next 'p' ("rint ".toList ++ text) =
      (⟨"print".toList, .token (.keyword .printWord)⟩, ' ' :: text) := rfl
  have blank : next ' ' text = (⟨[' '], .blank⟩, text) := rfl
  change cut ('p' :: ("rint ".toList ++ text)) = _
  rw [cut_cons, word, cut_cons, blank]

namespace Scan

/-- The tokens behind the keyword are those of the text. -/
theorem tokens_print (source : String) :
    (ofSource ("print " ++ source)).tokens =
      ⟨.keyword .printWord, "print", 1⟩ :: (ofSource source).tokens := by
  rw [tokens_eq_filterMap, tokens_eq_filterMap, items_ofSource, items_ofSource,
    String.toList_append, Piece.cut_print]
  rfl

/-- The keyword in front of a clean text leaves it clean. -/
theorem errors_print
    {source : String}
    (clean : (ofSource source).errors = []) :
    (ofSource ("print " ++ source)).errors = [] := by
  rw [errors_eq_nil_iff] at clean ⊢
  rw [String.toList_append, Piece.cut_print, List.forall_mem_cons, List.forall_mem_cons]
  exact ⟨nofun, nofun, clean⟩

/-- The printing program of a clean text is clean. -/
theorem errors_printing
    {source : String}
    (clean : (ofSource source).errors = []) :
    (ofSource (printing source)).errors = [] := by
  rw [printing_eq]
  exact errors_append_lineFeed (errors_print clean) (by decide +kernel)

/-- The tokens of an expression are the same, on the same lines, in the statement around
it. -/
theorem tokens_printing
    {source : String}
    (clean : (ofSource source).errors = []) :
    ∃ word semicolon : Token, word.kind = .keyword .printWord ∧
      semicolon.kind = .symbol .semicolon ∧
      (ofSource (printing source)).tokens = word :: ((ofSource source).tokens ++ [semicolon]) := by
  have last : (ofSource ";").tokens = [⟨.symbol .semicolon, ";", 1⟩] := by decide +kernel
  refine ⟨⟨.keyword .printWord, "print", 1⟩,
    ⟨.symbol .semicolon, ";", 1 + linesBefore ("print " ++ source)⟩, rfl, rfl, ?_⟩
  rw [printing_eq, tokens_append_lineFeed ";" (errors_print clean), tokens_print, last]
  rfl

end Scan

/-- The source text of an expression nests at most so many levels. -/
def NestsWithin (levels : Nat) (source : String) : Prop :=
  ∃ expression next,
    Grammar.Expression levels 0 (Scan.ofSource source).tokens expression next

/-- The source text of an expression nests at most so many levels if a reader that may nest
as many levels reads all of it without errors. -/
theorem nestsWithin_of_reads
    {levels : Nat}
    {source : String}
    (noErrors : Parse.errorsOf (Parse.expression levels
      ⟨(Scan.ofSource source).tokens, (Scan.ofSource source).endToken, 0, #[]⟩) = [])
    (finished : (Parse.cursorAfter (Parse.expression levels
      ⟨(Scan.ofSource source).tokens, (Scan.ofSource source).endToken, 0, #[]⟩)).rest = []) :
    NestsWithin levels source := by
  cases read : Parse.expression levels
      ⟨(Scan.ofSource source).tokens, (Scan.ofSource source).endToken, 0, #[]⟩ with
  | ok value after =>
    rw [read] at noErrors finished
    obtain ⟨used, split, derived⟩ := (Parse.expression_follows levels).sound
      (Parse.reads_of_no_errors rfl read (Array.toList_eq_nil_iff.mp noErrors))
    rw [show after.rest = [] from finished, List.append_nil] at split
    cases split
    exact ⟨value, after.nextId, derived⟩
  | error error after =>
    rw [read, Parse.errorsOf, Array.toList_push] at noErrors
    exact absurd noErrors (List.append_ne_nil_of_right_ne_nil _ (List.cons_ne_nil _ _))

/-- A statement that prints an expression may nest one level more than the expression. -/
theorem Grammar.program_print
    {first next : Nat}
    {tokens : List Token}
    {word semicolon : Token}
    {value : Expr}
    (derived : Expression 255 first tokens value next)
    (isWord : word.kind = .keyword .printWord)
    (isSemicolon : semicolon.kind = .symbol .semicolon) :
    Program first (word :: (tokens ++ [semicolon])) [.print value] next := by
  have statement : StatementWithin Parse.maxNesting false first
      (word :: (tokens ++ [semicolon])) (.print value) next := by
    rw [Parse.maxNesting, StatementWithin]
    exact .print isWord derived isSemicolon
  exact .more .none (.statement statement)

/-- A token that stands for something only inside of a class. -/
def Token.NeedsClass (token : Token) : Prop :=
  token.kind = .keyword .thisWord ∨ token.kind = .keyword .superWord

instance : DecidablePred Token.NeedsClass :=
  fun _ => inferInstanceAs (Decidable (_ ∨ _))

/-- A leaf whose token does not need a class. -/
def Leaf.Freestanding (leaf : Leaf) : Prop :=
  leaf.Fits fun token => ¬ token.NeedsClass

namespace Resolution

variable {around : Surroundings} {walk : Resolution}

/-- Outside all scopes, filing does nothing. -/
theorem file_outside
    (outside : walk.scopes = [])
    (reference : Reference)
    (skip : Nat) :
    walk.file around reference skip = walk := by
  simp [file, distance?, outside]

/-- Outside all scopes, reading a name does nothing. -/
theorem readName_outside
    (outside : walk.scopes = [])
    (reference : Reference) :
    walk.readName around reference = walk := by
  simp [readName, outside, file_outside]

mutual

/-- Outside of all scopes, the walk over an expression files nothing and reports nothing. -/
theorem expression_outside
    (outside : walk.scopes = []) :
    (value : Expr) -> (∀ leaf ∈ value.leaves, leaf.Freestanding) ->
      expression around value walk = walk
  | .literal _, _ => by rw [expression]
  | .grouping inner, freestanding => by
    rw [Expr.leaves] at freestanding
    rw [expression, expression_outside outside inner freestanding]
  | .unary operator right, freestanding => by
    rw [Expr.leaves, List.forall_mem_cons] at freestanding
    rw [expression, expression_outside outside right freestanding.2]
  | .binary left operator right, freestanding => by
    rw [Expr.leaves, List.forall_mem_append, List.forall_mem_cons] at freestanding
    rw [expression, expression_outside outside left freestanding.1,
      expression_outside outside right freestanding.2.2]
  | .logical left operator right, freestanding => by
    rw [Expr.leaves, List.forall_mem_append, List.forall_mem_cons] at freestanding
    rw [expression, expression_outside outside left freestanding.1,
      expression_outside outside right freestanding.2.2]
  | .read target, _ => by rw [expression, readName_outside outside]
  | .assign target value, freestanding => by
    rw [Expr.leaves, List.forall_mem_cons] at freestanding
    rw [expression, expression_outside outside value freestanding.2, file_outside outside]
  | .call callee paren arguments, freestanding => by
    rw [Expr.leaves, List.forall_mem_append, List.forall_mem_cons] at freestanding
    rw [expression, expression_outside outside callee freestanding.1,
      expressions_outside outside arguments freestanding.2.2]
  | .property object name, freestanding => by
    rw [Expr.leaves, List.forall_mem_append] at freestanding
    rw [expression, expression_outside outside object freestanding.1]
  | .setProperty object name value, freestanding => by
    rw [Expr.leaves, List.forall_mem_append, List.forall_mem_cons] at freestanding
    rw [expression, expression_outside outside value freestanding.2.2,
      expression_outside outside object freestanding.1]
  | .self keyword, freestanding => by
    rw [Expr.leaves, List.forall_mem_singleton] at freestanding
    exact absurd (.inl (List.mem_singleton.mp freestanding.1)) freestanding.2
  | .inherited keyword method, freestanding => by
    rw [Expr.leaves, List.forall_mem_cons] at freestanding
    exact absurd (.inr (List.mem_singleton.mp freestanding.1.1)) freestanding.1.2

/-- Outside all scopes, resolving freestanding expressions does nothing. -/
theorem expressions_outside
    (outside : walk.scopes = []) :
    (values : List Expr) -> (∀ leaf ∈ Expr.listLeaves values, leaf.Freestanding) ->
      expressions around values walk = walk
  | [], _ => by rw [expressions]
  | first :: rest, freestanding => by
    rw [Expr.listLeaves, List.forall_mem_append] at freestanding
    rw [expressions, expression_outside outside first freestanding.1,
      expressions_outside outside rest freestanding.2]

end

end Resolution

theorem Machine.bare_fresh (clock : Clock) (output : Output) : (fresh clock output).Bare output :=
  ⟨rfl, rfl, rfl⟩

namespace Session

section Printing

variable {fuel : Nat} {echo : Bool} {machine after : Machine} {expression : Expr}

/-- A printed expression that evaluates writes the line of its value. -/
theorem interpret_print_of_ok
    {value : Value}
    (evaluated : Eval.evaluate fuel expression machine = .ok value after)
    (ample : after.output.HasRoom (after.heap.line value).size) :
    interpret (fuel + 1) echo [.print expression] 0 machine =
      (1, none, after.writingTo (after.output.keep (after.heap.line value))) := by
  have executed : Eval.execute (fuel + 1) (.print expression) machine =
      .ok .normal (after.writingTo (after.output.keep (after.heap.line value))) :=
    (Eval.bind_of_ok evaluated _).trans (Eval.bind_of_ok (Eval.printLine_of_hasRoom ample) _)
  have atTop : executeTopLevel (fuel + 1) echo (.print expression) machine =
      .ok () (after.writingTo (after.output.keep (after.heap.line value))) :=
    Eval.bind_of_ok executed _
  rw [interpret, atTop]
  rfl

/-- A printed expression that is interrupted stops the program. -/
theorem interpret_print_of_error
    {interruption : Interruption}
    (evaluated : Eval.evaluate fuel expression machine = .error interruption after) :
    interpret (fuel + 1) echo [.print expression] 0 machine = (0, some interruption, after) := by
  have executed : Eval.execute (fuel + 1) (.print expression) machine =
      .error interruption after := Eval.bind_of_error evaluated _
  have atTop : executeTopLevel (fuel + 1) echo (.print expression) machine =
      .error interruption after := Eval.bind_of_error executed _
  rw [interpret, atTop]

end Printing

/-- Running a source text shows what an evaluation has come to.  If that is a value, the line
of the value is written, as long as there is room for it, and nothing else.  If it is an
error, nothing is written and this one error is reported. -/
def ShowsOutcome
    (session : Session)
    (fuel : Nat)
    (source : String)
    (after : Machine) : Except Error Value -> Prop
  | .ok value =>
    session.machine.output.HasRoom (after.heap.line value).size ->
      ∃ final, session.run fuel source = some (⟨1, [], false⟩, final) ∧
        final.machine.output.written =
          session.machine.output.written ++ after.heap.line value
  | .error error =>
    ∃ final, session.run fuel source = some (⟨0, [error], false⟩, final) ∧
      final.machine.output.written = session.machine.output.written

/-- A source text without lexical errors whose tokens form an expression, which needs no
class around it and leaves room for a statement. -/
structure Printable (source : String) (expression : Expr) : Prop where
  clean : (Scan.ofSource source).errors = []
  derived : ∃ next, Grammar.Expression 255 0 (Scan.ofSource source).tokens expression next
  freestanding : ∀ leaf ∈ expression.leaves, leaf.Freestanding

namespace Printable

variable {source : String} {expression : Expr}

/-- An expression that parses by itself and needs no class can be printed. -/
theorem of_parseExpression
    (clean : (parseExpression source).errors = [])
    (parsed : (parseExpression source).result = some expression)
    (freestanding : ∀ token ∈ (Scan.ofSource source).tokens, ¬ token.NeedsClass)
    (shallow : NestsWithin 255 source) :
    Printable source expression := by
  have scanned := (Parsed.errors_withScan_eq_nil_iff.mp clean).1
  obtain ⟨found, next, derived⟩ := shallow
  rw [parseExpression_of_derived scanned (derived.mono (by decide))] at parsed
  cases parsed
  exact ⟨scanned, ⟨next, derived⟩, Grammar.expression_draws 255 derived freestanding⟩

/-- The printing program parses to the one print statement. -/
theorem parseProgram_eq (printable : Printable source expression) :
    ∃ next, parseProgram (printing source) 0 = ⟨[.print expression], next, []⟩ := by
  obtain ⟨next, derived⟩ := printable.derived
  obtain ⟨word, semicolon, isWord, isSemicolon, tokens⟩ := Scan.tokens_printing printable.clean
  refine ⟨next, parseProgram_of_derived (Scan.errors_printing printable.clean) ?_⟩
  rw [tokens]
  exact Grammar.program_print derived isWord isSemicolon

/-- Outside of all scopes there is nothing to resolve. -/
theorem resolve_eq (printable : Printable source expression) (globals : List String) :
    resolve globals [.print expression] = { globals := globals } := by
  rw [resolve, Resolution.statements, Resolution.statements, Resolution.statement]
  exact Resolution.expression_outside rfl expression printable.freestanding

/-- The printing program has no static errors. -/
theorem staticErrors_eq
    (printable : Printable source expression)
    (clock : Clock)
    (output : Output) :
    (fresh clock output).staticErrors (printing source) = [] := by
  obtain ⟨next, parsed⟩ := printable.parseProgram_eq
  rw [staticErrors, resolution, program, show (fresh clock output).nextId = 0 from rfl, parsed,
    printable.resolve_eq]
  rfl

/-- Only the printed expression is interpreted, on a machine that knows of no distance. -/
theorem interpreted_eq
    (printable : Printable source expression)
    (clock : Clock)
    (output : Output)
    (fuel : Nat) :
    (fresh clock output).interpreted fuel (printing source) =
      interpret fuel false [.print expression] 0 (.fresh clock output) := by
  obtain ⟨next, parsed⟩ := printable.parseProgram_eq
  rw [interpreted, ready, resolution, program, show (fresh clock output).nextId = 0 from rfl,
    parsed, printable.resolve_eq]
  rfl

/-- Where the expression evaluates to a value, the printing program shows it. -/
theorem showsOutcome_of_ok
    {clock : Clock}
    {fuel : Nat}
    {value : Value}
    {after : Machine}
    (printable : Printable source expression)
    (evaluated : Eval.evaluate fuel expression (.fresh clock after.output) = .ok value after) :
    (fresh clock after.output).ShowsOutcome (fuel + 1) (printing source) after (.ok value) := by
  intro ample
  have accepts := printable.staticErrors_eq clock after.output
  have ended := (printable.interpreted_eq clock after.output (fuel + 1)).trans
    (interpret_print_of_ok evaluated ample)
  refine ⟨(fresh clock after.output).finished (fuel + 1) (printing source), ?_, ?_⟩
  · rw [run_eq_finished accepts, ended]
    rfl
  · rw [finished, ended]
    exact Output.written_keep_of_hasRoom ample

/-- Where the expression ends with an error, the printing program reports it. -/
theorem showsOutcome_of_error
    {clock : Clock}
    {fuel : Nat}
    {interruption : Interruption}
    {error : Error}
    {after : Machine}
    (printable : Printable source expression)
    (evaluated : Eval.evaluate fuel expression (.fresh clock after.output) =
      .error interruption after)
    (reported : interruption.error? = some error) :
    (fresh clock after.output).ShowsOutcome (fuel + 1) (printing source) after (.error error) := by
  have accepts := printable.staticErrors_eq clock after.output
  have ended := (printable.interpreted_eq clock after.output (fuel + 1)).trans
    (interpret_print_of_error evaluated)
  refine ⟨(fresh clock after.output).finished (fuel + 1) (printing source), ?_, ?_⟩
  · rw [run_eq_finished accepts, ended, RunResult.ofEnd, reported]
    rfl
  · rw [finished, ended]
    rfl

end Printable

/-- Take an expression whose tokens need no class, and which leaves room for a statement
around it.  A statement that prints it has no static error, and in a fresh session it shows
what evaluating the expression on a fresh machine comes to.  Evaluating ends, from some
amount of fuel on always in the same way. -/
theorem printing_agrees_with_evaluating
    {source : String}
    {expression : Expr}
    (clock : Clock)
    (output : Output)
    (clean : (parseExpression source).errors = [])
    (parsed : (parseExpression source).result = some expression)
    (freestanding : ∀ token ∈ (Scan.ofSource source).tokens, ¬ token.NeedsClass)
    (shallow : NestsWithin 255 source) :
    (fresh clock output).staticErrors (printing source) = [] ∧
      ∃ outcome after enough, ∀ fuel, enough ≤ fuel ->
        evaluateOn fuel expression (.fresh clock output) = some (outcome, after) ∧
          (fresh clock output).ShowsOutcome fuel (printing source) after outcome := by
  have printable := Printable.of_parseExpression clean parsed freestanding shallow
  refine ⟨printable.staticErrors_eq clock output, ?_⟩
  obtain ⟨ending, enough, ends, settled⟩ :=
    settles_evaluate expression (.fresh clock output) (Machine.bare_fresh clock output)
  dsimp only at settled
  cases ends with
  | @ok value after bare =>
    obtain rfl := bare.output
    refine ⟨.ok value, after, enough + 1, fun fuel sufficient => ?_⟩
    obtain ⟨less, rfl⟩ : ∃ less, fuel = less + 1 := ⟨fuel - 1, by omega⟩
    constructor
    · rw [evaluateOn, settled (less + 1) (by omega)]
    · exact printable.showsOutcome_of_ok (settled less (by omega))
  | @error interruption after isReported bare =>
    obtain rfl := bare.output
    obtain ⟨error, reported⟩ := Option.isSome_iff_exists.mp isReported
    refine ⟨.error error, after, enough + 1, fun fuel sufficient => ?_⟩
    obtain ⟨less, rfl⟩ : ∃ less, fuel = less + 1 := ⟨fuel - 1, by omega⟩
    constructor
    · rw [evaluateOn, settled (less + 1) (by omega)]
      dsimp only
      rw [reported, Option.map_some]
    · exact printable.showsOutcome_of_error (settled less (by omega)) reported

/-- A text that reads the clock and ends in a comment. -/
def clockText : String :=
  "clock() // now"

/-- A call of the clock with a comment behind it. -/
theorem printing_agrees_with_evaluating_clock :
    ∃ expression, (parseExpression clockText).result = some expression ∧
      (fresh { reading := fun _ => 1.5 } {}).staticErrors (printing clockText) = [] ∧
      ∃ outcome after enough, ∀ fuel, enough ≤ fuel ->
        evaluateOn fuel expression (.fresh { reading := fun _ => 1.5 } {}) = some (outcome, after) ∧
          (fresh { reading := fun _ => 1.5 } {}).ShowsOutcome fuel (printing clockText) after
            outcome := by
  have clean : (parseExpression clockText).errors = [] := by decide +kernel
  have isParsed : (parseExpression clockText).result.isSome = true := by decide +kernel
  have freestanding : ∀ token ∈ (Scan.ofSource clockText).tokens, ¬ token.NeedsClass := by
    decide +kernel
  have shallow : NestsWithin 255 clockText :=
    nestsWithin_of_reads (by decide +kernel) (by decide +kernel)
  obtain ⟨expression, parsed⟩ := Option.isSome_iff_exists.mp isParsed
  exact ⟨expression, parsed, printing_agrees_with_evaluating _ _ clean parsed freestanding shallow⟩

end Session

end TreeWalk
