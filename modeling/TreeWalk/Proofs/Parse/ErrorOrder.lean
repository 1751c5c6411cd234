import TreeWalk.Proofs.Parse.Relining
import TreeWalk.Proofs.Parse.Room

/-!
# The order of errors

An error that ends the reading of a statement, and one about too many parameters or
arguments, is at the token to be read next.  So it is at or behind every token with
an error that was noted before.  An equals sign whose left side cannot be assigned
to is noted only when its value has been read, after the errors of the value.  So
errors are noted in the order of their tokens, except that those of the value of
such an assignment come before the one of its equals sign.

Here the lines of the tokens go up from each token to the next.  Then the line of an
error says at which token it is.
-/

namespace TreeWalk
namespace Parse

/-- The lines go up from each token that is left to the next, and to the end. -/
def Rising (cursor : Cursor) : Prop :=
  (cursor.rest ++ [cursor.endToken]).Pairwise (·.line < ·.line)

/-- An equals sign is among the tokens, and reading the value behind it noted some
errors. -/
def ValueNotes (start : Cursor) (equals : Token) (found : List SyntaxError) : Prop :=
  ∃ room behind value after, room ≤ maxNesting ∧ equals :: behind.rest <:+ start.rest ∧
    behind.endToken = start.endToken ∧ expression room behind = .ok value after ∧
    after.errors.toList = behind.errors.toList ++ found

/-- Errors that are noted while reading goes on from one line to another. -/
inductive Noted (start : Cursor) : Nat -> List SyntaxError -> Nat -> Prop
  | nothing
      {low high : Nat}
      (ordered : low ≤ high) :
      Noted start low [] high
  | append
      {low middle high : Nat}
      {found more : List SyntaxError}
      (first : Noted start low found middle)
      (second : Noted start middle more high) :
      Noted start low (found ++ more) high
  | here
      {token : Token}
      {fault : SyntaxFault}
      (member : token ∈ start.rest ++ [start.endToken])
      (ordinary : fault ≠ .invalidAssignmentTarget) :
      Noted start token.line [⟨token, fault⟩] token.line
  | target
      {low high : Nat}
      {equals : Token}
      {found : List SyntaxError}
      (value : Noted start low found high)
      (behind : equals.line < low)
      (notes : ValueNotes start equals found) :
      Noted start equals.line (found ++ [⟨equals, .invalidAssignmentTarget⟩]) high

section Onward

variable {start cursor middle after : Cursor}

/-- Lines still go up among the tokens that are left. -/
theorem Rising.onward (rising : Rising start) (onward : Onward start cursor) : Rising cursor := by
  obtain ⟨used, isRest⟩ := onward.rest
  rw [Rising, onward.endToken]
  rw [Rising, ← isRest, List.append_assoc, List.pairwise_append] at rising
  exact rising.2.1

/-- The token to be read next is the first one that is left, or ends the input. -/
theorem Onward.next_mem (onward : Onward start cursor) :
    cursor.next ∈ start.rest ++ [start.endToken] := by
  obtain ⟨used, isRest⟩ := onward.rest
  rw [← isRest, Cursor.next, onward.endToken]
  cases cursor.rest <;> simp

/-- A token that has been read is on a lower line than the one to be read next. -/
theorem Rising.lt_next
    {token : Token}
    (rising : Rising cursor)
    (onward : Onward cursor after)
    (isRead : token :: after.rest <:+ cursor.rest) :
    token.line < after.next.line := by
  obtain ⟨used, isRest⟩ := isRead
  rw [Rising, ← isRest, List.append_assoc, List.pairwise_append] at rising
  have behind := (List.pairwise_cons.mp rising.2.1).1
  refine behind after.next ?_
  rw [Cursor.next, onward.endToken]
  cases after.rest <;> simp

/-- Moving on never goes back to a lower line. -/
theorem Rising.next_le (rising : Rising cursor) (onward : Onward cursor after) :
    cursor.next.line ≤ after.next.line := by
  obtain ⟨used, isRest⟩ := onward.rest
  cases used with
  | nil =>
    rw [Cursor.next, Cursor.next, onward.endToken, ← isRest]
    exact Nat.le_refl _
  | cons token others =>
    have isNext : cursor.next = token := by
      rw [Cursor.next, ← isRest]
      rfl
    rw [Rising, ← isRest, List.append_assoc, List.cons_append, List.pairwise_cons] at rising
    rw [isNext]
    refine Nat.le_of_lt (rising.1 after.next (List.mem_append_right others ?_))
    rw [Cursor.next, onward.endToken]
    cases after.rest <;> simp

/-- Reading has gone on, and the errors on the way have been noted. -/
structure Advanced (start before after : Cursor) : Prop where
  onward : Onward before after
  noted : ∃ found, after.errors.toList = before.errors.toList ++ found ∧
    Noted start before.next.line found after.next.line

/-- Reading has gone on without an error. -/
theorem Advanced.quietly
    (rising : Rising start)
    (within : Onward start cursor)
    (onward : Onward cursor after)
    (sameErrors : after.errors = cursor.errors) :
    Advanced start cursor after :=
  ⟨onward, [], by rw [sameErrors, List.append_nil],
    .nothing ((rising.onward within).next_le onward)⟩

theorem Advanced.trans
    (one : Advanced start cursor middle)
    (other : Advanced start middle after) :
    Advanced start cursor after := by
  obtain ⟨found, isFound, noted⟩ := one.noted
  obtain ⟨more, isMore, notedMore⟩ := other.noted
  refine ⟨one.onward.trans other.onward, found ++ more, ?_, noted.append notedMore⟩
  rw [isMore, isFound, List.append_assoc]

/-- An error is noted at the next token. -/
theorem Advanced.noting
    {fault : SyntaxFault}
    (within : Onward start cursor)
    (ordinary : fault ≠ .invalidAssignmentTarget) :
    Advanced start cursor { cursor with errors := cursor.errors.push ⟨cursor.next, fault⟩ } := by
  refine ⟨⟨List.suffix_refl _, rfl⟩, [⟨cursor.next, fault⟩], Array.toList_push, ?_⟩
  exact .here within.next_mem ordinary

end Onward

/-- A reader moves on and notes errors in order.  If it fails then at the next
token, and not because of an assignment. -/
def Orderly {α : Type} (start : Cursor) (reader : Parse α) : Prop :=
  Rising start -> ∀ cursor, Onward start cursor ->
    Advanced start cursor (cursorAfter (reader cursor)) ∧
      ∀ error after, reader cursor = .error error after ->
        error.token = after.next ∧ error.fault ≠ .invalidAssignmentTarget

section Rules

variable {α β : Type} {start : Cursor}

/-- A reader that reads no token and notes no error. -/
theorem orderly_idle
    {reader : Parse α}
    (idle : ∀ cursor, ∃ result nextId, reader cursor = .ok result { cursor with nextId }) :
    Orderly start reader := by
  intro rising cursor within
  obtain ⟨result, nextId, ended⟩ := idle cursor
  rw [ended]
  exact ⟨.quietly rising within ⟨List.suffix_refl _, rfl⟩ rfl, fun _ _ failed => nomatch failed⟩

/-- A result is found without any error. -/
theorem orderly_pure (result : α) : Orderly start (pure result : Parse α) :=
  orderly_idle fun cursor => ⟨result, cursor.nextId, rfl⟩

theorem orderly_freshReference (name : Token) : Orderly start (freshReference name) :=
  orderly_idle fun _ => ⟨_, _, rfl⟩

/-- Looking at the next token notes no error. -/
theorem orderly_check (kind : Token.Kind) : Orderly start (check kind) :=
  orderly_idle fun cursor => ⟨_, cursor.nextId, rfl⟩

theorem orderly_atEnd : Orderly start atEnd :=
  orderly_idle fun cursor => ⟨_, cursor.nextId, rfl⟩

/-- Readers that come one after the other note their errors one after the other. -/
theorem Orderly.bind
    {reader : Parse α}
    {rest : α -> Parse β}
    (first : Orderly start reader)
    (second : ∀ result, Orderly start (rest result)) :
    Orderly start (reader >>= rest) := by
  intro rising cursor within
  obtain ⟨advanced, fails⟩ := first rising cursor within
  cases ended : reader cursor with
  | error error after =>
    rw [ended] at advanced fails
    rw [bind_of_error ended]
    refine ⟨advanced, fun _ _ failed => ?_⟩
    cases failed
    exact fails error after rfl
  | ok result middle =>
    rw [ended] at advanced
    rw [bind_of_ok ended]
    obtain ⟨later, failsLater⟩ := second result rising middle (within.trans advanced.onward)
    exact ⟨advanced.trans later, failsLater⟩

/-- A failure is at the next token. -/
theorem orderly_fail
    {fault : SyntaxFault}
    (ordinary : fault ≠ .invalidAssignmentTarget) :
    Orderly start (fail fault : Parse α) := by
  intro rising cursor within
  refine ⟨.quietly rising within (.refl cursor) rfl, fun error after failed => ?_⟩
  cases failed
  exact ⟨rfl, ordinary⟩

/-- So is an error that does not end the reading. -/
theorem orderly_reportNext
    {fault : SyntaxFault}
    (ordinary : fault ≠ .invalidAssignmentTarget) :
    Orderly start (reportNext fault) :=
  fun _ _ within => ⟨.noting within ordinary, fun _ _ failed => nomatch failed⟩

/-- Reading a token notes no error. -/
theorem orderly_acceptIf (admitted : Token.Kind -> Bool) :
    Orderly start (acceptIf admitted) := by
  intro rising cursor within
  rcases acceptIf_cases admitted cursor with refused | ⟨token, rest, isRest, -, accepted⟩
  · rw [refused]
    exact ⟨.quietly rising within (.refl cursor) rfl, fun _ _ failed => nomatch failed⟩
  · rw [accepted]
    refine ⟨.quietly rising within ⟨?_, rfl⟩ rfl, fun _ _ failed => nomatch failed⟩
    rw [isRest]
    exact List.suffix_cons token rest

/-- Go on in one of two ways, depending on whether the next token is admitted. -/
theorem orderly_ifAccepted
    {admitted : Token.Kind -> Bool}
    {rest : Option Token -> Parse α}
    (without : Orderly start (rest none))
    (behind : ∀ token, Orderly start (rest (some token))) :
    Orderly start (acceptIf admitted >>= rest) := by
  refine (orderly_acceptIf admitted).bind fun found => ?_
  cases found with
  | none => exact without
  | some token => exact behind token

/-- A token that is missing is noted where it was expected. -/
theorem orderly_expect (kind : Token.Kind) (what : String) :
    Orderly start (expect kind what) :=
  orderly_ifAccepted (orderly_fail (by simp)) orderly_pure

/-- Steps that note their errors in order do so however often they are taken. -/
theorem orderly_extend
    {step : α -> Parse (Option α)}
    (steps : ∀ result, Orderly start (step result))
    (first : α) :
    Orderly start (extend step first) := by
  have rounds : ∀ count result, Orderly start (extendAtMost step count result) := by
    intro count
    induction count with
    | zero => exact orderly_pure
    | succ count inductionHypothesis =>
      refine fun result => (steps result).bind fun found => ?_
      cases found with
      | none => exact orderly_pure result
      | some longer => exact inductionHypothesis longer
  refine (steps first).bind fun found => ?_
  cases found with
  | none => exact orderly_pure first
  | some longer =>
    have looks : Orderly start (get : Parse Cursor) :=
      orderly_idle fun cursor => ⟨cursor, cursor.nextId, rfl⟩
    exact looks.bind fun cursor => rounds _ longer

/-- That a list is too long is noted at the next item. -/
theorem orderly_parenthesized
    {item : Parse α}
    (items : Orderly start item)
    (what : String) :
    Orderly start (parenthesized what item) := by
  have steps : ∀ found : Array α, Orderly start (nextItem what item found) := by
    intro found
    refine orderly_ifAccepted (orderly_pure none) fun comma => ?_
    have read : Orderly start (do return some (found.push (← item))) :=
      items.bind fun next => orderly_pure _
    dsimp only
    split
    · exact (orderly_reportNext (by simp)).bind fun _ => read
    · exact read
  have listed : Orderly start (commaSeparated what item) :=
    items.bind fun first => (orderly_extend steps #[first]).bind fun found => orderly_pure _
  refine (orderly_check _).bind fun isClosed => ?_
  cases isClosed with
  | true => exact (orderly_expect _ _).bind fun paren => orderly_pure _
  | false => exact listed.bind fun found => (orderly_expect _ _).bind fun paren => orderly_pure _

end Rules

/-! ## Expressions -/

section Expressions

variable {start : Cursor} {expression operand : Parse Expr}

/-- A chain of operators notes the errors of its operands in order. -/
theorem orderly_leftAssociative
    (operands : Orderly start operand)
    (isOperator : Token.Kind -> Bool)
    (combine : Expr -> Token -> Expr -> Expr) :
    Orderly start (leftAssociative isOperator combine operand) := by
  refine operands.bind fun first => orderly_extend (fun left => ?_) first
  refine orderly_ifAccepted (orderly_pure none) fun operator => ?_
  exact operands.bind fun right => orderly_pure _

/-- So do the chains of every rank. -/
theorem orderly_operatorRule (operands : Orderly start operand) :
    Orderly start (operatorRule operand) := by
  unfold operatorRule
  iterate 6 refine orderly_leftAssociative ?_ _ _
  exact operands

/-- A primary expression notes the errors inside of it in order. -/
theorem orderly_primaryRule (inside : Orderly start expression) :
    Orderly start (primaryRule expression) := by
  refine orderly_ifAccepted (orderly_fail (by simp)) fun token => ?_
  have named : ∀ make : Reference -> Expr,
      Orderly start (do return make (← freshReference token)) :=
    fun make => (orderly_freshReference token).bind fun reference => orderly_pure _
  dsimp only
  split
  · exact orderly_pure _
  · exact orderly_pure _
  · exact orderly_pure _
  · exact orderly_pure _
  · exact orderly_pure _
  · exact named .read
  · exact named .self
  · refine (orderly_expect _ _).bind fun dot => (orderly_expect _ _).bind fun method => ?_
    exact named fun keyword => .inherited keyword method
  · exact inside.bind fun inner => (orderly_expect _ _).bind fun closing => orderly_pure _

/-- So does a chain of calls and properties. -/
theorem orderly_callRule (inside : Orderly start expression) :
    Orderly start (callRule expression) := by
  refine (orderly_primaryRule inside).bind fun first => orderly_extend (fun callee => ?_) first
  refine orderly_ifAccepted (orderly_ifAccepted (orderly_pure none) fun dot => ?_) fun paren => ?_
  · exact (orderly_expect _ _).bind fun name => orderly_pure _
  · exact (orderly_parenthesized inside _).bind fun found => orderly_pure _

/-- So does a unary expression. -/
theorem orderly_unaryRule
    (operands : Orderly start operand)
    (inside : Orderly start expression) :
    Orderly start (unaryRule operand expression) := by
  refine orderly_ifAccepted (orderly_callRule inside) fun operator => ?_
  exact operands.bind fun right => orderly_pure _

/-- An assignment reads nothing more, and notes an error only at its equals sign. -/
theorem assignmentTo_cases (target : Expr) (equals : Token) (value : Expr) (cursor : Cursor) :
    ∃ result,
      (∃ nextId, assignmentTo target equals value cursor = .ok result { cursor with nextId }) ∨
        assignmentTo target equals value cursor = .ok result { cursor with
          errors := cursor.errors.push ⟨equals, .invalidAssignmentTarget⟩ } := by
  cases target with
  | read reference => exact ⟨_, .inl ⟨_, rfl⟩⟩
  | property object name => exact ⟨_, .inl ⟨cursor.nextId, rfl⟩⟩
  | _ => exact ⟨_, .inr rfl⟩

/-- An error is noted at an equals sign whose value has been read. -/
theorem Advanced.assigning
    {cursor middle : Cursor}
    {rest : List Token}
    {equals : Token}
    {room : Nat}
    {value : Expr}
    (rising : Rising start)
    (within : Onward start cursor)
    (isRest : cursor.rest = equals :: rest)
    (enough : room ≤ maxNesting)
    (ended : Parse.expression room { cursor with rest := rest } = .ok value middle)
    (advanced : Advanced start { cursor with rest := rest } middle) :
    Advanced start cursor { middle with
      errors := middle.errors.push ⟨equals, .invalidAssignmentTarget⟩ } := by
  have isNext : cursor.next = equals := by
    rw [Cursor.next, isRest]
    rfl
  have step : Onward cursor { cursor with rest := rest } :=
    ⟨isRest ▸ List.suffix_cons equals rest, rfl⟩
  have passed : equals :: rest <:+ cursor.rest := isRest ▸ List.suffix_refl _
  obtain ⟨found, isFound, noted⟩ := advanced.noted
  have moved := step.trans advanced.onward
  refine ⟨⟨moved.rest, moved.endToken⟩, found ++ [⟨equals, .invalidAssignmentTarget⟩], ?_, ?_⟩
  · rw [Array.toList_push, isFound, List.append_assoc]
  · rw [isNext]
    refine .target noted ((rising.onward within).lt_next step passed) ?_
    exact ⟨room, { cursor with rest := rest }, value, middle, enough, passed.trans within.rest,
      within.endToken, ended, isFound⟩

/-- An equals sign that assigns to no variable or property is noted behind the errors of
its value, and everything else in order. -/
theorem orderly_assignmentRule
    {room : Nat}
    (enough : room ≤ maxNesting)
    (operands : Orderly start operand)
    (inside : Orderly start (Parse.expression room)) :
    Orderly start (assignmentRule operand (Parse.expression room)) := by
  refine (orderly_operatorRule operands).bind fun left => ?_
  intro rising cursor within
  rcases acceptIf_cases (· == .symbol .equal) cursor with
    refused | ⟨equals, rest, isRest, -, accepted⟩
  · rw [bind_of_ok (show accept (.symbol .equal) cursor = _ from refused)]
    exact orderly_pure left rising cursor within
  rw [bind_of_ok (show accept (.symbol .equal) cursor = _ from accepted)]
  change Advanced start cursor
      (cursorAfter ((Parse.expression room >>= assignmentTo left equals) _)) ∧
    ∀ error after, (Parse.expression room >>= assignmentTo left equals) _ = .error error after -> _
  have step : Onward cursor { cursor with rest := rest } :=
    ⟨isRest ▸ List.suffix_cons equals rest, rfl⟩
  have stepped : Advanced start cursor { cursor with rest := rest } :=
    .quietly rising within step rfl
  obtain ⟨advanced, fails⟩ := inside rising _ (within.trans step)
  cases ended : Parse.expression room { cursor with rest := rest } with
  | error error middle =>
    rw [ended] at advanced fails
    rw [bind_of_error ended]
    exact ⟨stepped.trans advanced, fails⟩
  | ok value middle =>
    rw [ended] at advanced
    rw [bind_of_ok ended]
    have toMiddle : Onward start middle := within.trans (step.trans advanced.onward)
    obtain ⟨result, ⟨nextId, assigned⟩ | noted⟩ := assignmentTo_cases left equals value middle
    · rw [assigned]
      refine ⟨(stepped.trans advanced).trans ?_, fun _ _ failed => nomatch failed⟩
      exact .quietly rising toMiddle ⟨List.suffix_refl _, rfl⟩ rfl
    · rw [noted]
      refine ⟨?_, fun _ _ failed => nomatch failed⟩
      exact .assigning rising within isRest enough ended advanced

end Expressions

/-- Expressions and operands note their errors in order, however deeply they are nested.
-/
theorem orderly_expression_and_unaryOperand
    (start : Cursor)
    {room : Nat}
    (within : room ≤ maxNesting) :
    Orderly start (expression room) ∧ Orderly start (unaryOperand room) := by
  induction room with
  | zero => exact ⟨orderly_fail (by simp), orderly_fail (by simp)⟩
  | succ room inductionHypothesis =>
    have less : room ≤ maxNesting := Nat.le_of_succ_le within
    obtain ⟨inside, operands⟩ := inductionHypothesis less
    have unary := orderly_unaryRule operands inside
    exact ⟨orderly_assignmentRule less unary inside, unary⟩

section Statements

variable
  {start : Cursor}
  {expression : Parse Expr}
  {statement : Parse Stmt}
  {block : Parse (List Stmt)}

theorem orderly_optionalUnless
    (kind : Token.Kind)
    (inside : Orderly start expression) :
    Orderly start (optionalUnless kind expression) := by
  refine (orderly_check kind).bind fun isNext => ?_
  cases isNext with
  | true => exact orderly_pure none
  | false => exact inside.bind fun value => orderly_pure _

/-- A variable declaration notes its errors in order. -/
theorem orderly_declareRule (inside : Orderly start expression) :
    Orderly start (declareRule expression) := by
  refine (orderly_expect _ _).bind fun name => orderly_ifAccepted ?_ fun equals => ?_
  · exact (orderly_expect _ _).bind fun _ => orderly_pure _
  · exact inside.bind fun value => (orderly_expect _ _).bind fun _ => orderly_pure _

/-- So does an expression statement. -/
theorem orderly_expressionStatementRule (inside : Orderly start expression) :
    Orderly start (expressionStatementRule expression) :=
  inside.bind fun _ => (orderly_expect _ _).bind fun _ => orderly_pure _

/-- So does a print statement. -/
theorem orderly_printRule (inside : Orderly start expression) :
    Orderly start (printRule expression) :=
  inside.bind fun _ => (orderly_expect _ _).bind fun _ => orderly_pure _

/-- So does a return statement. -/
theorem orderly_returnRule (keyword : Token) (inside : Orderly start expression) :
    Orderly start (returnRule keyword expression) :=
  (orderly_optionalUnless _ inside).bind fun _ =>
    (orderly_expect _ _).bind fun _ => orderly_pure _

/-- A conditional notes the errors of its condition and then those of its branches. -/
theorem orderly_conditionalRule
    (inside : Orderly start expression)
    (branches : Orderly start statement) :
    Orderly start (conditionalRule expression statement) := by
  refine (orderly_expect _ _).bind fun _ => inside.bind fun condition => ?_
  refine (orderly_expect _ _).bind fun _ => branches.bind fun thenBranch => ?_
  refine orderly_ifAccepted (orderly_pure _) fun _ => ?_
  exact branches.bind fun elseBranch => orderly_pure _

/-- A loop notes the errors of its condition and then those of its body. -/
theorem orderly_whileRule
    (inside : Orderly start expression)
    (bodies : Orderly start statement) :
    Orderly start (whileRule expression statement) := by
  refine (orderly_expect _ _).bind fun _ => inside.bind fun condition => ?_
  exact (orderly_expect _ _).bind fun _ => bodies.bind fun body => orderly_pure _

theorem orderly_forInitializerRule (inside : Orderly start expression) :
    Orderly start (forInitializerRule expression) := by
  refine orderly_ifAccepted (orderly_ifAccepted ?_ fun _ => ?_) fun _ => orderly_pure none
  · exact (orderly_expressionStatementRule inside).bind fun first => orderly_pure _
  · exact (orderly_declareRule inside).bind fun first => orderly_pure _

/-- A loop with a header notes the errors of its clauses and then those of its body. -/
theorem orderly_forRule
    (inside : Orderly start expression)
    (bodies : Orderly start statement) :
    Orderly start (forRule expression statement) := by
  refine (orderly_expect _ _).bind fun _ => ?_
  refine (orderly_forInitializerRule inside).bind fun initializer => ?_
  refine (orderly_optionalUnless _ inside).bind fun condition => ?_
  refine (orderly_expect _ _).bind fun _ => ?_
  refine (orderly_optionalUnless _ inside).bind fun increment => ?_
  refine (orderly_expect _ _).bind fun _ => ?_
  exact bodies.bind fun body => orderly_pure _

/-- A function notes the errors of its parameters and then those of its body. -/
theorem orderly_functionRule (what : String) (bodies : Orderly start block) :
    Orderly start (functionRule what block) := by
  refine (orderly_expect _ _).bind fun name => (orderly_expect _ _).bind fun _ => ?_
  refine (orderly_parenthesized (orderly_expect _ _) _).bind fun parameters => ?_
  exact (orderly_expect _ _).bind fun _ => bodies.bind fun body => orderly_pure _

/-- A class notes the errors of its methods in order. -/
theorem orderly_classRule (bodies : Orderly start block) : Orderly start (classRule block) := by
  have superclasses : Orderly start superclassRule := by
    refine orderly_ifAccepted (orderly_pure none) fun _ => (orderly_expect _ _).bind fun name => ?_
    exact (orderly_freshReference name).bind fun reference => orderly_pure _
  have steps : ∀ methods, Orderly start (nextMethod block methods) := by
    intro methods
    refine (orderly_check _).bind fun closes => orderly_atEnd.bind fun ends => ?_
    split
    · exact orderly_pure none
    · exact (orderly_functionRule _ bodies).bind fun method => orderly_pure _
  have methods : Orderly start (methodsRule block) :=
    (orderly_extend steps #[]).bind fun methods => orderly_pure _
  refine (orderly_expect _ _).bind fun name => superclasses.bind fun superclass => ?_
  refine (orderly_expect _ _).bind fun _ => methods.bind fun methods => ?_
  exact (orderly_expect _ _).bind fun _ => orderly_pure _

/-- A statement notes the errors of its parts in order. -/
theorem orderly_statementRule
    (inside : Orderly start expression)
    (parts : Orderly start statement)
    (bodies : Orderly start block) :
    Orderly start (statementRule expression statement block) := by
  refine orderly_ifAccepted (orderly_expressionStatementRule inside) fun token => ?_
  dsimp only
  split
  · exact orderly_forRule inside parts
  · exact orderly_conditionalRule inside parts
  · exact orderly_printRule inside
  · exact orderly_returnRule token inside
  · exact orderly_whileRule inside parts
  · exact bodies.bind fun body => orderly_pure _

/-- The error that ended a statement is noted at the token where it failed, and
reading is taken up behind that token. -/
theorem orderly_recovering
    {rule : Parse Stmt}
    (steps : Orderly start rule) :
    Orderly start (recovering rule) := by
  intro rising cursor within
  obtain ⟨advanced, fails⟩ := steps rising cursor within
  rw [recovering]
  cases ended : rule cursor with
  | ok result after =>
    rw [ended] at advanced
    refine ⟨advanced, ?_⟩
    rintro _ _ ⟨⟩
  | error error after =>
    rw [ended] at advanced
    obtain ⟨isNext, ordinary⟩ := fails error after ended
    refine ⟨?_, by rintro _ _ ⟨⟩⟩
    have toAfter : Onward start after := within.trans advanced.onward
    have noting := Advanced.noting toAfter ordinary
    rw [← isNext] at noting
    exact (advanced.trans noting).trans (.quietly rising (toAfter.trans noting.onward)
      ⟨synchronize_suffix after.rest, rfl⟩ rfl)

/-- A declaration notes the errors of its parts in order, and goes on behind the last one.
-/
theorem orderly_declarationRule
    (inside : Orderly start expression)
    (parts : Orderly start statement)
    (bodies : Orderly start block) :
    Orderly start (declarationRule expression statement block) := by
  refine orderly_recovering (orderly_ifAccepted parts fun token => ?_)
  dsimp only
  split
  · exact orderly_classRule bodies
  · exact (orderly_functionRule _ bodies).bind fun declaration => orderly_pure _
  · exact orderly_declareRule inside

/-- Declarations note their errors one after the other. -/
theorem orderly_declarationsWhile
    {more : Parse Bool}
    {declaration : Parse (Option Stmt)}
    (looks : Orderly start more)
    (declarations : Orderly start declaration) :
    Orderly start (declarationsWhile more declaration) := by
  have steps : ∀ statements, Orderly start (nextDeclaration more declaration statements) := by
    intro statements
    refine looks.bind fun goesOn => ?_
    split
    · refine declarations.bind fun found => ?_
      cases found <;> exact orderly_pure _
    · exact orderly_pure none
  exact (orderly_extend steps #[]).bind fun statements => orderly_pure _

/-- A block notes the errors of its declarations in order. -/
theorem orderly_blockRule
    {declaration : Parse (Option Stmt)}
    (declarations : Orderly start declaration) :
    Orderly start (blockRule declaration) := by
  refine (orderly_declarationsWhile ?_ declarations).bind fun statements => ?_
  · exact (orderly_check _).bind fun closes => orderly_atEnd.bind fun ends => orderly_pure _
  · exact (orderly_expect _ _).bind fun _ => orderly_pure _

end Statements

/-- Statements and blocks note their errors in order, however deeply they are nested. -/
theorem orderly_statement_and_block
    (start : Cursor)
    {room : Nat}
    (within : room ≤ maxNesting) :
    Orderly start (statement room) ∧ Orderly start (block room) := by
  induction room with
  | zero => exact ⟨orderly_fail (by simp), orderly_fail (by simp)⟩
  | succ room inductionHypothesis =>
    have less : room ≤ maxNesting := Nat.le_of_succ_le within
    obtain ⟨parts, bodies⟩ := inductionHypothesis less
    have inside := (orderly_expression_and_unaryOperand start less).1
    exact ⟨orderly_statementRule inside parts bodies,
      orderly_blockRule (orderly_declarationRule inside parts bodies)⟩

/-- A whole program notes its errors in order. -/
theorem orderly_program (start : Cursor) : Orderly start program := by
  obtain ⟨parts, bodies⟩ := orderly_statement_and_block start (Nat.le_refl maxNesting)
  have inside := (orderly_expression_and_unaryOperand start (Nat.le_refl maxNesting)).1
  exact orderly_declarationsWhile (orderly_atEnd.bind fun ends => orderly_pure _)
    (orderly_declarationRule inside parts bodies)

/-- So does a single expression. -/
theorem orderly_wholeExpression (start : Cursor) : Orderly start wholeExpression := by
  have inside := (orderly_expression_and_unaryOperand start (Nat.le_refl maxNesting)).1
  refine inside.bind fun result => orderly_atEnd.bind fun ends => ?_
  cases ends with
  | true => exact orderly_pure result
  | false => exact orderly_fail (by simp)

end Parse
end TreeWalk
