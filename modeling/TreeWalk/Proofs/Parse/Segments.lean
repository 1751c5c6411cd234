import TreeWalk.Proofs.Parse.LocalRules

/-!
# Segments of a program

The tokens of a program are read in segments, one for each declaration at the
outermost level.  A declaration that cannot be read is skipped up to where the
next one may begin, and its errors do not reach further: each segment on its own
gives the same statement and the same errors as in its place.
-/

namespace TreeWalk
namespace Parse

/-- Read a declaration that may nest the given number of levels.  These are the
declarations of blocks, and with the greatest number those of a program. -/
def declarationWithin (room : Nat) : Parse (Option Stmt) :=
  declarationRule (expression room) (statement room) (block room)

/-- What one call reads: its tokens, the statement if there is one, the reference
numbers it uses, and the errors it notes. -/
structure Segment where
  tokens : List Token
  statement : Option Stmt
  firstId : Nat
  nextId : Nat
  errors : List SyntaxError

/-- A reader reads a segment, which is not empty, and leaves what is behind it. -/
structure Segment.ReadBy
    (segment : Segment)
    (reader : Parse (Option Stmt))
    (before after : Cursor) : Prop where
  ended : reader before = .ok segment.statement after
  nonempty : segment.tokens ≠ []
  rest : before.rest = segment.tokens ++ after.rest
  endToken : after.endToken = before.endToken
  firstId : before.nextId = segment.firstId
  nextId : after.nextId = segment.nextId
  increases : before.nextId ≤ after.nextId
  errors : after.errors.toList = before.errors.toList ++ segment.errors

/-- The excerpt that is read from a cursor on, to be read on its own with
references numbered from `firstId`. -/
def Excerpt.since
    (cursor : Cursor)
    (firstId : Nat)
    (following : List Token)
    (ownEnd : Token)
    (sameEnd : following = [] -> ownEnd = cursor.endToken) : Excerpt where
  following := following
  wholeEnd := cursor.endToken
  ownEnd := ownEnd
  shift := cursor.nextId - firstId
  wholeErrors := cursor.errors.toList
  ownErrors := []
  sameEnd := sameEnd

/-- An excerpt begins where a cursor is. -/
theorem Excerpt.cut_since
    {cursor : Cursor}
    {firstId : Nat}
    {tokens following : List Token}
    {ownEnd : Token}
    {sameEnd : following = [] -> ownEnd = cursor.endToken}
    (isRest : cursor.rest = tokens ++ following)
    (notBelow : firstId ≤ cursor.nextId) :
    (Excerpt.since cursor firstId following ownEnd sameEnd).Cut cursor
      ⟨tokens, ownEnd, firstId, #[]⟩ :=
  ⟨isRest, rfl, rfl, (Nat.add_sub_of_le notBelow).symm, [], (List.append_nil _).symm, rfl⟩

/-- A reader that recovers always comes to a result. -/
theorem recovering_ok (rule : Parse Stmt) (cursor : Cursor) :
    ∃ result after, recovering rule cursor = .ok result after := by
  rw [recovering]
  split
  · exact ⟨_, _, rfl⟩
  · exact ⟨_, _, rfl⟩

/-- Every call of a declaration before the end reads a segment. -/
theorem declarationWithin_reads (room : Nat) {cursor : Cursor} (more : cursor.rest ≠ []) :
    ∃ segment after, Segment.ReadBy segment (declarationWithin room) cursor after := by
  obtain ⟨result, after, ended⟩ :
      ∃ result after, declarationWithin room cursor = .ok result after :=
    recovering_ok _ cursor
  -- The same call with number zero and without earlier errors shows what it adds to them.
  let excerpt := Excerpt.since cursor 0 [] cursor.endToken fun _ => rfl
  have cut : excerpt.Cut cursor ⟨cursor.rest, cursor.endToken, 0, #[]⟩ :=
    Excerpt.cut_since (List.append_nil cursor.rest).symm (Nat.zero_le cursor.nextId)
  have recovers := recovers_declaration excerpt room
  obtain ⟨_, ownAfter, _, _, cutAfter⟩ := (recovers.tracks True).succeeds trivial cursor _ result
    after after.rest cut ended (List.append_nil _).symm (.inl rfl)
  obtain ⟨found, wholeErrors, -⟩ := cutAfter.errors
  have moved := (recovers.tracks True).onward cursor
  rw [show declarationRule _ _ _ cursor = _ from ended] at moved
  obtain ⟨tokens, isRest⟩ : after.rest <:+ cursor.rest := moved.rest
  refine ⟨⟨tokens, result, cursor.nextId, after.nextId, found⟩, after, ended, ?_, isRest.symm,
    moved.endToken, rfl, rfl, ?_, wholeErrors⟩
  · rintro rfl
    have shorter := recovers.shorter more ended
    rw [← isRest] at shorter
    exact Nat.lt_irrefl _ shorter
  · rw [cutAfter.nextId]
    exact Nat.le_add_left _ _

/-- The segments of a program, in order. -/
inductive Segmented : Cursor -> List Segment -> Cursor -> Prop
  | none {cursor : Cursor} (isEmpty : cursor.rest = []) : Segmented cursor [] cursor
  | more
      {segment : Segment}
      {segments : List Segment}
      {before middle after : Cursor}
      (first : segment.ReadBy declaration before middle)
      (later : Segmented middle segments after) :
      Segmented before (segment :: segments) after

/-- Every text falls into segments, one for each call of the reader of declarations. -/
theorem exists_segmented (cursor : Cursor) :
    ∃ segments after, Segmented cursor segments after := by
  by_cases isEmpty : cursor.rest = []
  · exact ⟨[], cursor, .none isEmpty⟩
  · obtain ⟨segment, middle, first⟩ := declarationWithin_reads maxNesting isEmpty
    have shorter : middle.rest.length < cursor.rest.length := by
      have positive := List.length_pos_iff.mpr first.nonempty
      rw [first.rest, List.length_append]
      omega
    obtain ⟨segments, after, later⟩ := exists_segmented middle
    exact ⟨segment :: segments, after, .more first later⟩
termination_by cursor.rest.length

/-- The segments are the whole text, without gaps. -/
theorem Segmented.rest_eq
    {before after : Cursor}
    {segments : List Segment}
    (segmented : Segmented before segments after) :
    before.rest = segments.flatMap (·.tokens) := by
  induction segmented with
  | none isEmpty => exact isEmpty
  | more first later inductionHypothesis =>
    rw [first.rest, inductionHypothesis, List.flatMap_cons]

/-- The errors are those of the segments, one after the other. -/
theorem Segmented.errors_eq
    {before after : Cursor}
    {segments : List Segment}
    (segmented : Segmented before segments after) :
    after.errors.toList = before.errors.toList ++ segments.flatMap (·.errors) := by
  induction segmented with
  | none isEmpty => exact (List.append_nil _).symm
  | more first later inductionHypothesis =>
    rw [inductionHypothesis, first.errors, List.flatMap_cons, List.append_assoc]

/-- The part of a program from one of its segments on. -/
theorem Segmented.split
    {before after : Cursor}
    {earlier later : List Segment}
    {segment : Segment}
    (segmented : Segmented before (earlier ++ segment :: later) after) :
    ∃ start middle, segment.ReadBy declaration start middle ∧ Segmented middle later after ∧
      start.endToken = before.endToken ∧ before.nextId ≤ start.nextId := by
  induction earlier generalizing before with
  | nil =>
    cases segmented with
    | more first others => exact ⟨before, _, first, others, rfl, Nat.le_refl _⟩
  | cons head earlier inductionHypothesis =>
    cases segmented with
    | more first others =>
      obtain ⟨start, middle, reads, behind, sameEnd, notBelow⟩ := inductionHypothesis others
      exact ⟨start, middle, reads, behind, sameEnd.trans first.endToken,
        Nat.le_trans first.increases notBelow⟩

/-- Whether a program goes on. -/
def goesOn : Parse Bool := do
  return !(← atEnd)

/-- At the end there is no more declaration. -/
theorem nextDeclaration_of_end
    {cursor : Cursor}
    (isEmpty : cursor.rest = [])
    (statements : Array Stmt) :
    nextDeclaration goesOn declaration statements cursor = .ok none cursor := by
  have looked : goesOn cursor = .ok (!cursor.rest.isEmpty) cursor := rfl
  rw [nextDeclaration, bind_of_ok looked, isEmpty]
  rfl

/-- A segment adds its statement, if it has one. -/
theorem nextDeclaration_of_readBy
    {segment : Segment}
    {before after : Cursor}
    (reads : segment.ReadBy declaration before after)
    (statements : Array Stmt) :
    nextDeclaration goesOn declaration statements before =
      .ok (some (statements ++ segment.statement.toArray)) after := by
  have looked : goesOn before = .ok (!before.rest.isEmpty) before := rfl
  have more : before.rest.isEmpty = false := by
    rw [reads.rest, List.isEmpty_eq_false_iff]
    exact fun isEmpty => reads.nonempty (List.append_eq_nil_iff.mp isEmpty).1
  rw [nextDeclaration, bind_of_ok looked, more]
  refine (bind_of_ok reads.ended _).trans ?_
  cases segment.statement with
  | none =>
    rw [Option.toArray_none, Array.append_empty]
    rfl
  | some statement =>
    rw [Option.toArray_some, Array.append_singleton]
    rfl

/-- A declaration takes at least one token, even if it is skipped. -/
theorem advances_nextDeclaration : Advances (nextDeclaration goesOn declaration) := by
  refine ⟨fun statements cursor longer after ended => ?_,
    fun statements cursor isEmpty => nextDeclaration_of_end isEmpty statements⟩
  by_cases isEmpty : cursor.rest = []
  · cases (nextDeclaration_of_end isEmpty statements).symm.trans ended
  · obtain ⟨segment, middle, reads⟩ := declarationWithin_reads maxNesting isEmpty
    cases (nextDeclaration_of_readBy reads statements).symm.trans ended
    have positive := List.length_pos_iff.mpr reads.nonempty
    rw [reads.rest, List.length_append]
    omega

/-- All segments add their statements, one after the other. -/
theorem Segmented.extend_eq
    {before after : Cursor}
    {segments : List Segment}
    (segmented : Segmented before segments after)
    (found : Array Stmt) :
    extend (nextDeclaration goesOn declaration) found before =
      .ok (found ++ (segments.filterMap (·.statement)).toArray) after := by
  induction segmented generalizing found with
  | none isEmpty =>
    refine (bind_of_ok (nextDeclaration_of_end isEmpty found) _).trans ?_
    rw [List.filterMap_nil, Array.append_empty]
    rfl
  | @more segment segments before middle after first later inductionHypothesis =>
    rw [advances_nextDeclaration.extend_of_step (nextDeclaration_of_readBy first found),
      inductionHypothesis, Array.append_assoc]
    cases isStatement : segment.statement with
    | none => simp [isStatement]
    | some statement => simp [isStatement]

/-- A program consists of the statements of its segments. -/
theorem Segmented.program_eq
    {before after : Cursor}
    {segments : List Segment}
    (segmented : Segmented before segments after) :
    program before = .ok (segments.filterMap (·.statement)) after := by
  refine (bind_of_ok (segmented.extend_eq #[]) _).trans ?_
  rw [Array.empty_append]
  rfl

/-- A program is parsed to the statements and errors of its segments. -/
theorem Segmented.parseTokens_eq
    {tokens : List Token}
    {endToken : Token}
    {firstId : Nat}
    {segments : List Segment}
    {after : Cursor}
    (segmented : Segmented ⟨tokens, endToken, firstId, #[]⟩ segments after) :
    parseTokens tokens endToken firstId =
      ⟨segments.filterMap (·.statement), after.nextId, segments.flatMap (·.errors)⟩ := by
  rw [parseTokens, segmented.program_eq]
  exact congrArg (Parsed.mk _ _) segmented.errors_eq

/-- A segment of a program, whose references are numbered from `firstId`, gives on
its own the same statement and the same errors.  Only its numbers are smaller, by
as many as have been used before it. -/
def Segment.StandsAlone (segment : Segment) (firstId : Nat) (ownEnd : Token) : Prop :=
  ∃ statement nextId,
    parseTokens segment.tokens ownEnd firstId = ⟨statement.toList, nextId, segment.errors⟩ ∧
      segment.statement =
        Stmt.optionRenumber (fun id => id + (segment.firstId - firstId)) statement ∧
      segment.nextId = nextId + (segment.firstId - firstId)

/-- The same call on the tokens of the segment alone. -/
theorem Segment.ReadBy.alone
    {segment : Segment}
    {before after : Cursor}
    {firstId : Nat}
    {ownEnd : Token}
    (reads : segment.ReadBy declaration before after)
    (notBelow : firstId ≤ before.nextId)
    (sameEnd : after.rest = [] -> ownEnd = before.endToken) :
    ∃ statement ownAfter,
      Segment.ReadBy ⟨segment.tokens, statement, firstId, ownAfter.nextId, segment.errors⟩
        declaration ⟨segment.tokens, ownEnd, firstId, #[]⟩ ownAfter ∧
      ownAfter.rest = [] ∧
      segment.statement =
        Stmt.optionRenumber (fun id => id + (segment.firstId - firstId)) statement ∧
      segment.nextId = ownAfter.nextId + (segment.firstId - firstId) := by
  -- The segment is the excerpt, and nothing that follows it is seen.
  let excerpt := Excerpt.since before firstId after.rest ownEnd sameEnd
  have cut : excerpt.Cut before ⟨segment.tokens, ownEnd, firstId, #[]⟩ :=
    Excerpt.cut_since reads.rest notBelow
  have recovers := recovers_declaration excerpt maxNesting
  obtain ⟨statement, ownAfter, ownEnded, agrees, cutAfter⟩ :=
    (recovers.tracks True).succeeds trivial before _ segment.statement after [] cut reads.ended rfl
      (.inl rfl)
  obtain ⟨found, wholeErrors, ownErrors⟩ := cutAfter.errors
  have isFound : found = segment.errors :=
    List.append_cancel_left (wholeErrors.symm.trans reads.errors)
  have isEmpty : ownAfter.rest = [] := (cutAfter.left_eq rfl).symm
  have used : segment.nextId = ownAfter.nextId + (segment.firstId - firstId) := by
    rw [← reads.nextId, ← reads.firstId]
    exact cutAfter.nextId
  have increases : firstId ≤ ownAfter.nextId := by
    have increases := reads.increases
    rw [reads.nextId, reads.firstId] at increases
    rw [reads.firstId] at notBelow
    omega
  refine ⟨statement, ownAfter, ⟨ownEnded, reads.nonempty, ?_, cutAfter.ownEnd, rfl, rfl,
    increases, ?_⟩, isEmpty, ?_, used⟩
  · rw [isEmpty, List.append_nil]
  · rw [ownErrors, isFound]
    rfl
  · rw [← reads.firstId]
    generalize segment.statement = whole at agrees
    cases agrees with
    | none => rfl
    | some agrees => exact congrArg some agrees

/-- A segment is read on its own as it is read in the program, but for its numbers. -/
theorem Segment.ReadBy.standsAlone
    {segment : Segment}
    {before after : Cursor}
    {firstId : Nat}
    {ownEnd : Token}
    (reads : segment.ReadBy declaration before after)
    (notBelow : firstId ≤ before.nextId)
    (sameEnd : after.rest = [] -> ownEnd = before.endToken) :
    segment.StandsAlone firstId ownEnd := by
  obtain ⟨statement, ownAfter, ownReads, isEmpty, isStatement, used⟩ := reads.alone notBelow sameEnd
  refine ⟨statement, ownAfter.nextId, ?_, isStatement, used⟩
  rw [(Segmented.more ownReads (.none isEmpty)).parseTokens_eq]
  cases statement <;> simp

/-- Reading is taken up again at the end, just after a semicolon, or just before
a token that begins a statement. -/
theorem synchronize_stop (tokens : List Token) :
    synchronize tokens = [] ∨
      (∃ skipped semicolon, tokens = skipped ++ semicolon :: synchronize tokens ∧
        semicolon.isSymbol .semicolon = true) ∨
      (synchronize tokens).head?.any (·.kind.beginsStatement) = true := by
  induction tokens with
  | nil => exact .inl rfl
  | cons token rest inductionHypothesis =>
    rw [synchronize]
    split
    · rename_i isSemicolon
      exact .inr (.inl ⟨[], token, rfl, isSemicolon⟩)
    · split
      · rename_i begins
        exact .inr (.inr begins)
      · rcases inductionHypothesis with isEmpty | ⟨skipped, semicolon, isRest, isSemicolon⟩ | begins
        · exact .inl isEmpty
        · refine .inr (.inl ⟨token :: skipped, semicolon, ?_, isSemicolon⟩)
          rw [List.cons_append, ← isRest]
        · exact .inr (.inr begins)

/-- A segment without a statement has an error, and it ends at the end of the
program, just after a semicolon, or just before a token that begins a
statement. -/
def Segment.IsRecovered (segment : Segment) (following : List Token) : Prop :=
  segment.statement = none ->
    segment.errors ≠ [] ∧
      (following = [] ∨
        segment.tokens.getLast?.any (·.isSymbol .semicolon) = true ∨
        following.head?.any (·.kind.beginsStatement) = true)

/-- A declaration without a statement has noted an error, and has skipped to where
synchronizing stops. -/
theorem declaration_skips
    {cursor after : Cursor}
    (ended : declaration cursor = .ok none after) :
    after.errors.toList ≠ [] ∧
      ∃ failed, failed <:+ cursor.rest ∧ after.rest = synchronize failed :=
  (recovers_declaration (.since cursor 0 [] cursor.endToken fun _ => rfl) maxNesting).skips ended

/-- So a segment without a statement ends where synchronizing stops. -/
theorem Segment.ReadBy.isRecovered
    {segment : Segment}
    {before after : Cursor}
    (reads : segment.ReadBy declaration before after) :
    segment.IsRecovered after.rest := by
  intro isNone
  constructor
  · obtain ⟨statement, ownAfter, ownReads, -, isStatement, -⟩ :=
      reads.alone (Nat.zero_le _) fun _ => rfl
    cases statement with
    | some statement => cases isNone.symm.trans isStatement
    | none =>
      rw [← List.nil_append segment.errors]
      exact ownReads.errors ▸ (declaration_skips ownReads.ended).1
  · have ended := reads.ended
    rw [isNone] at ended
    obtain ⟨-, failed, ⟨used, isRest⟩, isAfter⟩ := declaration_skips ended
    rcases synchronize_stop failed with
      isEmpty | ⟨skipped, semicolon, isFailed, isSemicolon⟩ | begins
    · exact .inl (isAfter.trans isEmpty)
    · refine .inr (.inl ?_)
      have split : segment.tokens ++ after.rest = used ++ skipped ++ [semicolon] ++ after.rest :=
        calc
          segment.tokens ++ after.rest = used ++ failed := reads.rest.symm.trans isRest.symm
          _ = used ++ (skipped ++ semicolon :: after.rest) := by rw [isAfter, ← isFailed]
          _ = used ++ skipped ++ [semicolon] ++ after.rest := by simp
      rw [List.append_cancel_right split, List.getLast?_concat]
      exact isSemicolon
    · rw [← isAfter] at begins
      exact .inr (.inr begins)

/-- Every call of a declaration before the end reads at least one token and never
goes beyond the end.  How deep it may nest is an argument of the call, so it is
the same afterwards.  The tokens of a program are therefore cut into segments,
one for each declaration at the outermost level, which give on their own what
they give in their place: the end behind them may be any, but for the last one.
Where a declaration is lost there is an error, and reading has been taken up again
at a place that is known. -/
theorem errors_stay_in_their_segment (tokens : List Token) (endToken : Token) (firstId : Nat) :
    (∀ room cursor, cursor.rest ≠ [] ->
      ∃ segment after, Segment.ReadBy segment (declarationWithin room) cursor after) ∧
    ∃ segments after,
      Segmented ⟨tokens, endToken, firstId, #[]⟩ segments after ∧
      segments.flatMap (·.tokens) = tokens ∧
      parseTokens tokens endToken firstId =
        ⟨segments.filterMap (·.statement), after.nextId, segments.flatMap (·.errors)⟩ ∧
      ∀ earlier segment later, segments = earlier ++ segment :: later ->
        (∀ ownEnd, (later = [] -> ownEnd = endToken) -> segment.StandsAlone firstId ownEnd) ∧
        segment.IsRecovered (later.flatMap (·.tokens)) := by
  refine ⟨fun room cursor => declarationWithin_reads room, ?_⟩
  obtain ⟨segments, after, segmented⟩ := exists_segmented ⟨tokens, endToken, firstId, #[]⟩
  refine ⟨segments, after, segmented, segmented.rest_eq.symm, segmented.parseTokens_eq, ?_⟩
  rintro earlier segment later rfl
  obtain ⟨start, middle, reads, behind, sameEnd, notBelow⟩ := segmented.split
  refine ⟨fun ownEnd isEnd => reads.standsAlone notBelow fun isEmpty => ?_, ?_⟩
  · rw [sameEnd]
    refine isEnd ?_
    cases behind with
    | none => rfl
    | more first _ =>
      exact absurd (List.append_eq_nil_iff.mp (first.rest.symm.trans isEmpty)).1 first.nonempty
  · rw [← behind.rest_eq]
    exact reads.isRecovered

end Parse
end TreeWalk
