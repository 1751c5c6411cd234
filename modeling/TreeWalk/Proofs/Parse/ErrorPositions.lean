import TreeWalk.Proofs.Parse.ErrorOrder

/-!
# The positions of errors

Lines do not tell the tokens of a program apart, and neither do kinds and texts.  So
the position of an error is found by parsing the tokens again with their positions
as lines.  Main statement: where errors are not in the order of their positions, the
later ones are at equals signs whose left side cannot be assigned to, and the ones
before them are those of the values behind these equals signs.
-/

namespace TreeWalk
namespace Parse

section Noted

variable {start : Cursor} {low high : Nat} {found : List SyntaxError}

/-- What has been noted on the way from one line to another goes no line back. -/
theorem Noted.ordered (noted : Noted start low found high) : low ≤ high := by
  induction noted with
  | nothing ordered => exact ordered
  | append first second lower upper => exact Nat.le_trans lower upper
  | here member ordinary => exact Nat.le_refl _
  | target value behind notes inductionHypothesis =>
    exact Nat.le_trans (Nat.le_of_lt behind) inductionHypothesis

/-- Every error is noted between the lines where reading began and ended. -/
theorem Noted.between (noted : Noted start low found high) :
    ∀ error ∈ found, low ≤ error.token.line ∧ error.token.line ≤ high := by
  induction noted with
  | nothing ordered => simp
  | append first second inFirst inSecond =>
    have lower := first.ordered
    have upper := second.ordered
    rw [List.forall_mem_append]
    refine ⟨fun error member => ?_, fun error member => ?_⟩
    · have bounds := inFirst error member
      omega
    · have bounds := inSecond error member
      omega
  | here member ordinary => simp
  | target value behind notes inductionHypothesis =>
    have upper := value.ordered
    rw [List.forall_mem_append, List.forall_mem_singleton]
    refine ⟨fun error member => ?_, Nat.le_refl _, Nat.le_trans (Nat.le_of_lt behind) upper⟩
    have bounds := inductionHypothesis error member
    omega

/-- Every error is noted at one of the tokens, or at the end. -/
theorem Noted.member (noted : Noted start low found high) :
    ∀ error ∈ found, error.token ∈ start.rest ++ [start.endToken] := by
  induction noted with
  | nothing ordered => simp
  | append first second inFirst inSecond =>
    exact List.forall_mem_append.mpr ⟨inFirst, inSecond⟩
  | here member ordinary => exact List.forall_mem_singleton.mpr member
  | target value behind notes inductionHypothesis =>
    obtain ⟨room, cursor, result, after, -, isSuffix, -⟩ := notes
    refine List.forall_mem_append.mpr ⟨inductionHypothesis, List.forall_mem_singleton.mpr ?_⟩
    exact List.mem_append_left _ (isSuffix.subset List.mem_cons_self)

/-- An item of two lists is one of the first or one of the second. -/
theorem append_eq_append_cons
    {α : Type}
    {first second before after : List α}
    {item : α}
    (isSplit : first ++ second = before ++ item :: after) :
    (∃ others, first = before ++ item :: others) ∨
      ∃ others, before = first ++ others ∧ second = others ++ item :: after := by
  rcases List.append_eq_append_iff.mp isSplit with
    ⟨others, isBefore, isSecond⟩ | ⟨others, isFirst, isRest⟩
  · exact .inr ⟨others, isBefore, isSecond⟩
  · cases others with
    | nil => exact .inr ⟨[], by simp [isFirst], isRest.symm⟩
    | cons head tail =>
      rw [List.cons_append, List.cons.injEq] at isRest
      exact .inl ⟨tail, by rw [isFirst, isRest.1]⟩

theorem singleton_eq_append_cons
    {α : Type}
    {only item : α}
    {before after : List α}
    (isSplit : [only] = before ++ item :: after) :
    before = [] ∧ item = only := by
  cases before with
  | nil => exact ⟨rfl, (List.cons.inj isSplit).1.symm⟩
  | cons head tail => simp at isSplit

/-- What was noted before an error is at or before its token, but for the errors of
the value of an assignment, which come last. -/
theorem Noted.split
    {before after : List SyntaxError}
    {error : SyntaxError}
    (noted : Noted start low found high)
    (isSplit : found = before ++ error :: after) :
    ∃ earlier inside : List SyntaxError, before = earlier ++ inside ∧
      (∀ other ∈ earlier, other.token.line ≤ error.token.line) ∧
      (∀ other ∈ inside, error.token.line < other.token.line) ∧
      (error.fault ≠ .invalidAssignmentTarget -> inside = []) ∧
      (error.fault = .invalidAssignmentTarget -> ValueNotes start error.token inside) := by
  induction noted generalizing before after with
  | nothing ordered => simp at isSplit
  | @append low middle high found more first second inFirst inSecond =>
    rcases append_eq_append_cons isSplit with ⟨others, isFound⟩ | ⟨others, isBefore, isMore⟩
    · exact inFirst isFound
    · -- The error is among the later ones, so the earlier ones are all before it.
      obtain ⟨earlier, inside, isOthers, areEarlier, areInside, kinds⟩ := inSecond isMore
      refine ⟨found ++ earlier, inside, ?_, ?_, areInside, kinds⟩
      · rw [isBefore, isOthers, List.append_assoc]
      · have bounds := second.between error (isMore ▸ List.mem_append_right _ List.mem_cons_self)
        refine List.forall_mem_append.mpr ⟨fun other member => ?_, areEarlier⟩
        exact Nat.le_trans (first.between other member).2 bounds.1
  | here member ordinary =>
    obtain ⟨rfl, rfl⟩ := singleton_eq_append_cons isSplit
    exact ⟨[], [], rfl, by simp, by simp, fun _ => rfl, fun target => absurd target ordinary⟩
  | @target low high equals found value behind notes inductionHypothesis =>
    rcases append_eq_append_cons isSplit with ⟨others, isFound⟩ | ⟨others, isBefore, isLast⟩
    · exact inductionHypothesis isFound
    · obtain ⟨rfl, rfl⟩ := singleton_eq_append_cons isLast
      rw [List.append_nil] at isBefore
      subst isBefore
      refine ⟨[], before, rfl, by simp, fun other member => ?_, fun ordinary => absurd rfl ordinary,
        fun _ => notes⟩
      exact Nat.lt_of_lt_of_le behind (value.between other member).1

end Noted

end Parse

/-- The tokens with their positions as lines. -/
def markPositions (tokens : List Token) : List Token :=
  tokens.mapIdx fun position token => token.reline fun _ => position

/-- The line of the token at a position.  The end of the input is behind the last
token. -/
def lineAt (tokens : List Token) (endToken : Token) (position : Nat) : Nat :=
  ((tokens ++ [endToken]).getD position endToken).line

/-- The cursor in front of tokens that have their positions as lines. -/
def markedCursor (tokens : List Token) (endToken : Token) (firstId : Nat) : Cursor :=
  ⟨markPositions tokens, endToken.reline fun _ => tokens.length, firstId, #[]⟩

section Marking

variable (tokens : List Token) (endToken : Token)

/-- The token that ends the input is marked with the position behind all others. -/
theorem markPositions_append :
    markPositions tokens ++ [endToken.reline fun _ => tokens.length] =
      markPositions (tokens ++ [endToken]) := by
  simp [markPositions]

/-- Marked tokens are on lines that go up. -/
theorem pairwise_markPositions : (markPositions tokens).Pairwise (·.line < ·.line) := by
  rw [List.pairwise_iff_getElem]
  intro earlier later isBelow isAbove less
  simpa [markPositions] using less

/-- So reading marked tokens begins with lines that go up. -/
theorem rising_markedCursor (firstId : Nat) :
    Parse.Rising (markedCursor tokens endToken firstId) := by
  rw [Parse.Rising, markedCursor, markPositions_append]
  exact pairwise_markPositions _

/-- A token that gets its own line back. -/
theorem reline_of_position
    {token : Token}
    {position : Nat}
    (isThere : (tokens ++ [endToken])[position]? = some token) :
    (token.reline fun _ => position).reline (lineAt tokens endToken) = token := by
  have isLine : lineAt tokens endToken position = token.line := by
    rw [lineAt, List.getD_eq_getElem?_getD, isThere, Option.getD_some]
  rw [Token.reline_reline, Token.reline, Function.comp_apply, isLine]

/-- A marked token is at the position that its line says. -/
theorem getElem?_of_mem_markPositions
    {token : Token}
    (member : token ∈ markPositions (tokens ++ [endToken])) :
    (tokens ++ [endToken])[token.line]? = some (token.reline (lineAt tokens endToken)) := by
  obtain ⟨position, isBelow, rfl⟩ := List.getElem_of_mem member
  rw [markPositions, List.length_mapIdx] at isBelow
  have isThere := List.getElem?_eq_getElem isBelow
  have isMarked : (markPositions (tokens ++ [endToken]))[position] =
      (tokens ++ [endToken])[position].reline fun _ => position := List.getElem_mapIdx
  rw [isMarked, reline_of_position tokens endToken isThere]
  exact isThere

/-- Marks can be taken back. -/
theorem map_reline_markPositions :
    (markPositions tokens).map (·.reline (lineAt tokens endToken)) = tokens := by
  refine List.ext_getElem (by simp [markPositions]) fun position isBelow isPosition => ?_
  have isThere : (tokens ++ [endToken])[position]? = some tokens[position] := by
    rw [List.getElem?_append_left isPosition, List.getElem?_eq_getElem isPosition]
  simpa [markPositions] using reline_of_position tokens endToken isThere

/-- So can the mark of the token that ends the input. -/
theorem reline_markedEnd :
    (endToken.reline fun _ => tokens.length).reline (lineAt tokens endToken) = endToken :=
  reline_of_position tokens endToken List.getElem?_concat_length

/-- What is behind a marked token is what is behind the position that its line says. -/
theorem map_reline_of_markPositions
    {token : Token}
    {used rest : List Token}
    (isSplit : markPositions tokens = used ++ token :: rest) :
    rest.map (·.reline (lineAt tokens endToken)) = tokens.drop (token.line + 1) := by
  have isLine : token.line = used.length := by
    have isThere : (markPositions tokens)[used.length]? = some token := by
      rw [isSplit, List.getElem?_append_right (Nat.le_refl _), Nat.sub_self]
      rfl
    rw [markPositions, List.getElem?_mapIdx] at isThere
    obtain ⟨own, -, rfl⟩ := Option.map_eq_some_iff.mp isThere
    rfl
  have dropped : (markPositions tokens).drop (used.length + 1) = rest := by
    rw [isSplit, List.drop_append, Nat.add_sub_cancel_left]
    simp
  rw [isLine, ← dropped, List.map_drop, map_reline_markPositions]

end Marking

/-- An error and the position of the token at which it is. -/
structure PlacedError where
  position : Nat
  error : SyntaxError

/-- The error that is at the position which another one has as its line. -/
def placeError (tokens : List Token) (endToken : Token) (error : SyntaxError) : PlacedError :=
  ⟨error.token.line, error.reline (lineAt tokens endToken)⟩

/-- The errors of parsing a program, with their positions. -/
def placedErrors (tokens : List Token) (endToken : Token) (firstId : Nat) : List PlacedError :=
  (parseTokens (markPositions tokens) (endToken.reline fun _ => tokens.length) firstId).errors.map
    (placeError tokens endToken)

/-- The errors of parsing a single expression, with their positions. -/
def placedExpressionErrors (tokens : List Token) (endToken : Token) : List PlacedError :=
  (parseExpressionTokens (markPositions tokens)
    (endToken.reline fun _ => tokens.length)).errors.map (placeError tokens endToken)

/-- The errors of the expression that is read behind a position. -/
def valueErrors (tokens : List Token) (endToken : Token) (position : Nat) : List SyntaxError :=
  match Parse.expression Parse.maxNesting ⟨tokens.drop (position + 1), endToken, 0, #[]⟩ with
  | .ok _ after => after.errors.toList
  | .error _ _ => []

/-- How the errors of parsing some tokens are ordered.  Each is at the token at its
position.  One at an assignment target comes right after the errors of its value,
which are behind it.  Otherwise no error comes before another one and is behind it,
so the errors are in order if no such value has any. -/
structure ErrorOrder
    (tokens : List Token)
    (endToken : Token)
    (placed : List PlacedError) : Prop where
  located : ∀ found ∈ placed, (tokens ++ [endToken])[found.position]? = some found.error.token
  ordinary : ∀ (before : List PlacedError) (found : PlacedError) (after : List PlacedError),
    placed = before ++ found :: after ->
    found.error.fault ≠ .invalidAssignmentTarget ->
      ∀ other ∈ before, other.position ≤ found.position
  target : ∀ (before : List PlacedError) (found : PlacedError) (after : List PlacedError),
    placed = before ++ found :: after ->
    found.error.fault = .invalidAssignmentTarget ->
      ∃ earlier inside : List PlacedError, before = earlier ++ inside ∧
        (∀ other ∈ earlier, other.position ≤ found.position) ∧
        (∀ other ∈ inside, found.position < other.position) ∧
        inside.map (·.error) = valueErrors tokens endToken found.position
  inOrder_iff : placed.Pairwise (·.position ≤ ·.position) ↔
    ∀ found ∈ placed, found.error.fault = .invalidAssignmentTarget ->
      valueErrors tokens endToken found.position = []

namespace Parse

/-- What reading the value of an assignment noted does not depend on how deep the
assignment is, nor on what was read before. -/
theorem ValueNotes.eq_valueErrors
    {tokens : List Token}
    {endToken equals : Token}
    {firstId : Nat}
    {found : List SyntaxError}
    (notes : ValueNotes (markedCursor tokens endToken firstId) equals found) :
    found.map (·.reline (lineAt tokens endToken)) = valueErrors tokens endToken equals.line := by
  obtain ⟨room, behind, value, after, enough, ⟨used, isSuffix⟩, sameEnd, ended, isFound⟩ := notes
  obtain ⟨own, ownValue, ownAfter, isOwn, ownEnded, ownErrors⟩ := expression_noting ended
  obtain rfl : found = own := List.append_cancel_left (isFound.symm.trans isOwn)
  -- The equals sign is at the position which is its line, and the value begins behind it.
  have isBehind := map_reline_of_markPositions tokens endToken isSuffix.symm
  have whole := extends_expression enough _ _ _ ownEnded
  have same := (relines_expression_and_unaryOperand (lineAt tokens endToken) maxNesting).1
    ⟨behind.rest, behind.endToken, 0, #[]⟩
  rw [whole] at same
  have isStart : Cursor.reline (lineAt tokens endToken) ⟨behind.rest, behind.endToken, 0, #[]⟩ =
      ⟨tokens.drop (equals.line + 1), endToken, 0, #[]⟩ := by
    rw [Cursor.reline, isBehind, sameEnd]
    simp [markedCursor, reline_markedEnd]
  rw [isStart] at same
  rw [valueErrors, same, ← ownErrors]
  simp [relined, Cursor.reline]

/-- Items are in order if each of them is in order with all that come before it. -/
theorem pairwise_of_splits
    {α : Type}
    {related : α -> α -> Prop}
    {items : List α}
    (splits : ∀ (before : List α) (item : α) (after : List α), items = before ++ item :: after ->
      ∀ other ∈ before, related other item) :
    items.Pairwise related := by
  rw [List.pairwise_iff_getElem]
  intro earlier later isBelow isAbove less
  refine splits (items.take later) items[later] (items.drop (later + 1)) (by simp) _ ?_
  exact List.mem_take_iff_getElem.mpr ⟨earlier, by omega, rfl⟩

section Placed

variable
  {tokens : List Token}
  {endToken : Token}
  {firstId low high : Nat}
  {found : List SyntaxError}

/-- What was noted before an error, with the positions. -/
theorem Noted.split_placed
    {before after : List PlacedError}
    {error : PlacedError}
    (noted : Noted (markedCursor tokens endToken firstId) low found high)
    (isSplit : found.map (placeError tokens endToken) = before ++ error :: after) :
    ∃ earlier inside : List PlacedError, before = earlier ++ inside ∧
      (∀ other ∈ earlier, other.position ≤ error.position) ∧
      (∀ other ∈ inside, error.position < other.position) ∧
      (error.error.fault ≠ .invalidAssignmentTarget -> inside = []) ∧
      (error.error.fault = .invalidAssignmentTarget ->
        inside.map (·.error) = valueErrors tokens endToken error.position) := by
  obtain ⟨marked, others, isFound, rfl, isRest⟩ := List.map_eq_append_iff.mp isSplit
  obtain ⟨own, ownAfter, rfl, rfl, rfl⟩ := List.map_eq_cons_iff.mp isRest
  obtain ⟨earlier, inside, rfl, areEarlier, areInside, ordinary, target⟩ := noted.split isFound
  refine ⟨earlier.map (placeError tokens endToken), inside.map (placeError tokens endToken),
    List.map_append, List.forall_mem_map.mpr areEarlier, List.forall_mem_map.mpr areInside,
    fun isOrdinary => ?_, fun isTarget => ?_⟩
  · rw [ordinary isOrdinary, List.map_nil]
  · rw [List.map_map, placeError, ← (target isTarget).eq_valueErrors]
    rfl

/-- Errors are in order if no invalid assignment has a value with errors, and only
then. -/
theorem Noted.pairwise_placed_iff
    (noted : Noted (markedCursor tokens endToken firstId) low found high) :
    (found.map (placeError tokens endToken)).Pairwise (·.position ≤ ·.position) ↔
      ∀ error ∈ found.map (placeError tokens endToken),
        error.error.fault = .invalidAssignmentTarget ->
          valueErrors tokens endToken error.position = [] := by
  constructor
  · intro inOrder error member isTarget
    obtain ⟨before, after, isSplit⟩ := List.append_of_mem member
    obtain ⟨earlier, inside, rfl, -, areInside, -, target⟩ := noted.split_placed isSplit
    have notBehind : ∀ other ∈ earlier ++ inside, other.position ≤ error.position := by
      rw [isSplit] at inOrder
      exact fun other isBefore =>
        (List.pairwise_append.mp inOrder).2.2 other isBefore error List.mem_cons_self
    rw [← target isTarget, List.map_eq_nil_iff]
    refine List.eq_nil_iff_forall_not_mem.mpr fun other isInside => ?_
    have behind := areInside other isInside
    have before := notBehind other (List.mem_append_right earlier isInside)
    omega
  · intro noErrors
    refine pairwise_of_splits fun before error after isSplit => ?_
    obtain ⟨earlier, inside, rfl, areEarlier, -, ordinary, target⟩ := noted.split_placed isSplit
    have isEmpty : inside = [] := by
      by_cases isTarget : error.error.fault = .invalidAssignmentTarget
      · have member := isSplit ▸ List.mem_append_right (earlier ++ inside) List.mem_cons_self
        rw [← List.map_eq_nil_iff, target isTarget]
        exact noErrors error member isTarget
      · exact ordinary isTarget
    rw [isEmpty, List.append_nil]
    exact areEarlier

/-- Errors that are noted from the first token on are ordered. -/
theorem Noted.ordered_errors
    (noted : Noted (markedCursor tokens endToken firstId) low found high) :
    ErrorOrder tokens endToken (found.map (placeError tokens endToken)) := by
  constructor
  case located =>
    refine List.forall_mem_map.mpr fun error member => ?_
    have isToken := noted.member error member
    rw [markedCursor, markPositions_append] at isToken
    exact getElem?_of_mem_markPositions tokens endToken isToken
  case ordinary =>
    intro before error after isSplit isOrdinary
    obtain ⟨earlier, inside, rfl, areEarlier, -, ordinary, -⟩ := noted.split_placed isSplit
    rw [ordinary isOrdinary, List.append_nil]
    exact areEarlier
  case target =>
    intro before error after isSplit isTarget
    obtain ⟨earlier, inside, isBefore, areEarlier, areInside, -, target⟩ :=
      noted.split_placed isSplit
    exact ⟨earlier, inside, isBefore, areEarlier, areInside, target isTarget⟩
  case inOrder_iff => exact noted.pairwise_placed_iff

end Placed

/-- All errors that a reader has come to, with the one at which it failed. -/
def errorsOf {α : Type} : EStateM.Result SyntaxError Cursor α -> List SyntaxError
  | .ok _ cursor => cursor.errors.toList
  | .error error cursor => (cursor.errors.push error).toList

/-- A reader that notes its errors in order does so with tokens of any lines. -/
theorem Orderly.ordered
    {α : Type}
    {tokens : List Token}
    {endToken : Token}
    {firstId : Nat}
    {reader : Parse α}
    (orderly : Orderly (markedCursor tokens endToken firstId) reader) :
    ErrorOrder tokens endToken
      ((errorsOf (reader (markedCursor tokens endToken firstId))).map
        (placeError tokens endToken)) := by
  obtain ⟨⟨onward, found, isFound, noted⟩, fails⟩ :=
    orderly (rising_markedCursor tokens endToken firstId) _ (.refl _)
  cases ended : reader (markedCursor tokens endToken firstId) with
  | ok result after =>
    rw [ended] at isFound noted
    have errors : after.errors.toList = found := isFound
    rw [errorsOf, errors]
    exact noted.ordered_errors
  | error error after =>
    rw [ended] at isFound noted onward
    obtain ⟨isNext, ordinary⟩ := fails error after ended
    have errors : after.errors.toList = found := isFound
    have last : Noted (markedCursor tokens endToken firstId) after.next.line [error]
        after.next.line := by
      rw [← isNext]
      exact .here (isNext ▸ onward.next_mem) ordinary
    rw [errorsOf, Array.toList_push, errors]
    exact (noted.append last).ordered_errors

/-- The errors of a program are those that reading it leaves. -/
theorem errors_parseTokens (tokens : List Token) (endToken : Token) (firstId : Nat) :
    (parseTokens tokens endToken firstId).errors =
      errorsOf (program ⟨tokens, endToken, firstId, #[]⟩) := by
  rw [parseTokens]
  cases program ⟨tokens, endToken, firstId, #[]⟩ <;> rfl

/-- The errors of an expression are those that reading it leaves. -/
theorem errors_parseExpressionTokens (tokens : List Token) (endToken : Token) :
    (parseExpressionTokens tokens endToken).errors =
      errorsOf (wholeExpression ⟨tokens, endToken, 0, #[]⟩) := by
  rw [parseExpressionTokens]
  cases wholeExpression ⟨tokens, endToken, 0, #[]⟩ <;> rfl

end Parse

/-- Without their positions, the placed errors of a program are those that parsing it
reports. -/
theorem map_error_placedErrors (tokens : List Token) (endToken : Token) (firstId : Nat) :
    (placedErrors tokens endToken firstId).map (·.error) =
      (parseTokens tokens endToken firstId).errors := by
  have same := parseTokens_reline (lineAt tokens endToken) (markPositions tokens)
    (endToken.reline fun _ => tokens.length) firstId
  rw [map_reline_markPositions, reline_markedEnd] at same
  rw [placedErrors, List.map_map, same]
  rfl

/-- Without their positions, the placed errors of an expression are those that parsing it
reports. -/
theorem map_error_placedExpressionErrors (tokens : List Token) (endToken : Token) :
    (placedExpressionErrors tokens endToken).map (·.error) =
      (parseExpressionTokens tokens endToken).errors := by
  have same := parseExpressionTokens_reline (lineAt tokens endToken) (markPositions tokens)
    (endToken.reline fun _ => tokens.length)
  rw [map_reline_markPositions, reline_markedEnd] at same
  rw [placedExpressionErrors, List.map_map, same]
  rfl

/-- The errors of a program or a single expression are at their positions, and they
are in the order of these but for the errors of the values of invalid assignments. -/
theorem errors_are_in_order_but_for_targets (tokens : List Token) (endToken : Token) :
    (∀ firstId,
      (placedErrors tokens endToken firstId).map (·.error) =
          (parseTokens tokens endToken firstId).errors ∧
        ErrorOrder tokens endToken (placedErrors tokens endToken firstId)) ∧
      (placedExpressionErrors tokens endToken).map (·.error) =
          (parseExpressionTokens tokens endToken).errors ∧
        ErrorOrder tokens endToken (placedExpressionErrors tokens endToken) := by
  refine ⟨fun firstId => ⟨map_error_placedErrors tokens endToken firstId, ?_⟩,
    map_error_placedExpressionErrors tokens endToken, ?_⟩
  · rw [placedErrors, Parse.errors_parseTokens]
    exact (Parse.orderly_program (markedCursor tokens endToken firstId)).ordered
  · rw [placedExpressionErrors, Parse.errors_parseExpressionTokens]
    exact (Parse.orderly_wholeExpression (markedCursor tokens endToken 0)).ordered

/-- An assignment to what cannot be assigned to, in the value of another one. -/
def nestedTargets : String :=
  "true =\nfalse =\nnull;"

/-- The second equals sign is reported before the first, on a later line. -/
theorem nested_targets_are_out_of_order :
    (placedErrors (Scan.ofSource nestedTargets).tokens (Scan.ofSource nestedTargets).endToken
        0).map (·.position) = [3, 1] ∧
      (parseProgram nestedTargets 0).errors.map (·.line?) = [some 2, some 1] ∧
      ¬ ∀ tokens endToken firstId,
        (placedErrors tokens endToken firstId).Pairwise (·.position ≤ ·.position) := by
  have positions : (placedErrors (Scan.ofSource nestedTargets).tokens
      (Scan.ofSource nestedTargets).endToken 0).map (·.position) = [3, 1] := by
    decide +kernel
  refine ⟨positions, by decide +kernel, fun inOrder => ?_⟩
  have ordered := List.pairwise_map.mpr
    (inOrder (Scan.ofSource nestedTargets).tokens (Scan.ofSource nestedTargets).endToken 0)
  rw [positions] at ordered
  exact absurd ordered (by decide)

end TreeWalk
