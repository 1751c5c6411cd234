import TreeWalk.Parse.Program

/-!
# Reading without errors

A reader may note errors and go on.  `Reads` says that it succeeds without noting
any, and the lemmas of this module say what that means for each of the basic
readers.  Errors and reference numbers are never taken back (`Keeps`), so a
sequence of readers reads
without errors exactly when each of them does.
-/

namespace TreeWalk
namespace Parse

/-- The cursor that a reader leaves, whether it succeeds or fails. -/
def cursorAfter {α : Type} : EStateM.Result SyntaxError Cursor α -> Cursor
  | .ok _ cursor => cursor
  | .error _ cursor => cursor

/-- A cursor with at least the errors and the reference numbers of another one. -/
def UpTo (before after : Cursor) : Prop :=
  before.errors.size ≤ after.errors.size ∧ before.nextId ≤ after.nextId

/-- A reader that never takes back an error or a reference number. -/
def Keeps {α : Type} (reader : Parse α) : Prop :=
  ∀ cursor, UpTo cursor (cursorAfter (reader cursor))

/-- A reader succeeds and notes no error. -/
def Reads
    {α : Type}
    (reader : Parse α)
    (before : Cursor)
    (result : α)
    (after : Cursor) : Prop :=
  reader before = .ok result after ∧ after.errors.size = before.errors.size

/-- Nothing has been read and noted. -/
theorem UpTo.refl (cursor : Cursor) : UpTo cursor cursor :=
  ⟨Nat.le_refl _, Nat.le_refl _⟩

/-- What two readers have read and noted, they have read and noted together. -/
theorem UpTo.trans
    {before middle after : Cursor}
    (one : UpTo before middle)
    (other : UpTo middle after) :
    UpTo before after :=
  ⟨Nat.le_trans one.1 other.1, Nat.le_trans one.2 other.2⟩

variable {α β : Type}

/-- Behind a reader that comes to a result, the next one goes on with it. -/
theorem bind_of_ok
    {reader : Parse α}
    {cursor after : Cursor}
    {result : α}
    (ended : reader cursor = .ok result after)
    (rest : α -> Parse β) :
    (reader >>= rest) cursor = rest result after := by
  change EStateM.bind reader rest cursor = rest result after
  rw [EStateM.bind, ended]

/-- Behind a reader that fails, nothing more is read. -/
theorem bind_of_error
    {reader : Parse α}
    {cursor after : Cursor}
    {error : SyntaxError}
    (ended : reader cursor = .error error after)
    (rest : α -> Parse β) :
    (reader >>= rest) cursor = .error error after := by
  change EStateM.bind reader rest cursor = .error error after
  rw [EStateM.bind, ended]

/-- A sequence of readers succeeds exactly when both parts do. -/
theorem bind_eq_ok_iff
    {reader : Parse α}
    {rest : α -> Parse β}
    {before after : Cursor}
    {result : β} :
    (reader >>= rest) before = .ok result after ↔
      ∃ middleResult middle,
        reader before = .ok middleResult middle ∧ rest middleResult middle = .ok result after := by
  constructor
  · intro ended
    cases first : reader before with
    | error error middle =>
      rw [bind_of_error first] at ended
      cases ended
    | ok middleResult middle =>
      rw [bind_of_ok first] at ended
      exact ⟨middleResult, middle, rfl, ended⟩
  · rintro ⟨middleResult, middle, first, second⟩
    exact (bind_of_ok first rest).trans second

/-- What a reader comes to has to be followed alike only where it succeeds. -/
theorem bind_congr_of_ok
    {reader : Parse α}
    {rest otherRest : α -> Parse β}
    {cursor : Cursor}
    (same : ∀ result after, reader cursor = .ok result after ->
      rest result after = otherRest result after) :
    (reader >>= rest) cursor = (reader >>= otherRest) cursor := by
  cases ended : reader cursor with
  | error error after => rw [bind_of_error ended, bind_of_error ended]
  | ok result after =>
    rw [bind_of_ok ended, bind_of_ok ended]
    exact same result after ended

theorem keeps_pure (result : α) : Keeps (pure result : Parse α) :=
  fun cursor => .refl cursor

/-- Two readers keep the errors if each of them does. -/
theorem Keeps.bind
    {reader : Parse α}
    {rest : α -> Parse β}
    (first : Keeps reader)
    (second : ∀ result, Keeps (rest result)) :
    Keeps (reader >>= rest) := by
  intro cursor
  have kept := first cursor
  cases outcome : reader cursor with
  | ok result after =>
    rw [outcome] at kept
    rw [bind_of_ok outcome]
    exact kept.trans (second result after)
  | error error after =>
    rw [outcome] at kept
    rw [bind_of_error outcome]
    exact kept

/-- A failure keeps the errors. -/
theorem keeps_fail (fault : SyntaxFault) : Keeps (fail fault : Parse α) :=
  fun cursor => .refl cursor

theorem keeps_get : Keeps (get : Parse Cursor) :=
  fun cursor => .refl cursor

/-- An error that is noted is added to the others. -/
theorem keeps_report (token : Token) (fault : SyntaxFault) : Keeps (report token fault) := by
  intro cursor
  simp [report, cursorAfter, UpTo]

theorem keeps_reportNext (fault : SyntaxFault) : Keeps (reportNext fault) :=
  fun cursor => keeps_report cursor.next fault cursor

theorem keeps_freshReference (name : Token) : Keeps (freshReference name) :=
  fun _ => ⟨Nat.le_refl _, Nat.le_succ _⟩

theorem keeps_atEnd : Keeps atEnd :=
  fun cursor => .refl cursor

theorem keeps_check (kind : Token.Kind) : Keeps (check kind) :=
  fun cursor => .refl cursor

/-- Reading a token keeps the errors. -/
theorem keeps_acceptIf (admitted : Token.Kind -> Bool) : Keeps (acceptIf admitted) := by
  intro cursor
  unfold acceptIf
  split
  · split <;> exact ⟨Nat.le_refl _, Nat.le_refl _⟩
  · exact .refl cursor

theorem keeps_accept (kind : Token.Kind) : Keeps (accept kind) :=
  keeps_acceptIf _

/-- So does reading a token that is expected. -/
theorem keeps_expect (kind : Token.Kind) (what : String) : Keeps (expect kind what) := by
  refine (keeps_accept kind).bind fun found => ?_
  cases found with
  | none => exact keeps_fail _
  | some token => exact keeps_pure token

/-- However many steps are taken, the errors are kept. -/
theorem keeps_extendAtMost
    {step : α -> Parse (Option α)}
    (keeps : ∀ result, Keeps (step result))
    (count : Nat)
    (start : α) :
    Keeps (extendAtMost step count start) := by
  induction count generalizing start with
  | zero => exact keeps_pure start
  | succ count inductionHypothesis =>
    refine (keeps start).bind fun found => ?_
    cases found with
    | none => exact keeps_pure start
    | some longer => exact inductionHypothesis longer

/-- So they are if steps are taken as long as there are any. -/
theorem keeps_extend
    {step : α -> Parse (Option α)}
    (keeps : ∀ result, Keeps (step result))
    (start : α) :
    Keeps (extend step start) := by
  refine (keeps start).bind fun found => ?_
  cases found with
  | none => exact keeps_pure start
  | some longer => exact keeps_get.bind fun cursor => keeps_extendAtMost keeps _ longer

/-- Recovering from an error adds it to the others. -/
theorem keeps_recovering
    {rule : Parse Stmt}
    (keeps : Keeps rule) :
    Keeps (recovering rule) := by
  intro cursor
  have kept := keeps cursor
  unfold recovering
  cases outcome : rule cursor with
  | ok statement after =>
    rw [outcome] at kept
    exact kept
  | error error after =>
    rw [outcome] at kept
    exact ⟨Nat.le_trans kept.1 (by simp [cursorAfter]), kept.2⟩

/-- A result is found without reading anything. -/
theorem reads_pure_iff
    {wanted result : α}
    {before after : Cursor} :
    Reads (pure wanted : Parse α) before result after ↔ result = wanted ∧ after = before := by
  constructor
  · rintro ⟨outcome, -⟩
    cases outcome
    exact ⟨rfl, rfl⟩
  · rintro ⟨rfl, rfl⟩
    exact ⟨rfl, rfl⟩

/-- A sequence of readers reads without errors exactly when both parts do. -/
theorem reads_bind_iff
    {reader : Parse α}
    {rest : α -> Parse β}
    {before after : Cursor}
    {result : β}
    (first : Keeps reader)
    (second : ∀ result, Keeps (rest result)) :
    Reads (reader >>= rest) before result after ↔
      ∃ middleResult middle,
        Reads reader before middleResult middle ∧
          Reads (rest middleResult) middle result after := by
  constructor
  · rintro ⟨outcome, same⟩
    obtain ⟨middleResult, middle, firstOutcome, secondOutcome⟩ := bind_eq_ok_iff.mp outcome
    have keptFirst := (first before).1
    rw [firstOutcome, cursorAfter] at keptFirst
    have keptSecond := (second middleResult middle).1
    rw [secondOutcome, cursorAfter] at keptSecond
    exact ⟨middleResult, middle, ⟨firstOutcome, by omega⟩, secondOutcome, by omega⟩
  · rintro ⟨middleResult, middle, ⟨firstOutcome, firstSame⟩, secondOutcome, secondSame⟩
    exact ⟨(bind_of_ok firstOutcome rest).trans secondOutcome, secondSame.trans firstSame⟩

/-- What is read by two readers, they read together. -/
theorem Reads.bind
    {reader : Parse α}
    {rest : α -> Parse β}
    {before middle after : Cursor}
    {middleResult : α}
    {result : β}
    (first : Reads reader before middleResult middle)
    (second : Reads (rest middleResult) middle result after) :
    Reads (reader >>= rest) before result after := by
  obtain ⟨firstOutcome, firstSame⟩ := first
  obtain ⟨secondOutcome, secondSame⟩ := second
  exact ⟨(bind_of_ok firstOutcome rest).trans secondOutcome, secondSame.trans firstSame⟩

/-- A failure reads nothing. -/
theorem not_reads_fail
    {fault : SyntaxFault}
    {before after : Cursor}
    {result : α} :
    ¬ Reads (fail fault : Parse α) before result after := by
  rintro ⟨impossible, -⟩
  cases impossible

/-- Who notes an error does not read without one. -/
theorem not_reads_report
    {token : Token}
    {fault : SyntaxFault}
    {before after : Cursor}
    {result : Unit} :
    ¬ Reads (report token fault) before result after := by
  rintro ⟨outcome, same⟩
  cases outcome
  simp at same

theorem not_reads_reportNext
    {fault : SyntaxFault}
    {before after : Cursor}
    {result : Unit} :
    ¬ Reads (reportNext fault) before result after :=
  not_reads_report

/-- A reference is given the next number. -/
theorem reads_freshReference_iff
    {name : Token}
    {before after : Cursor}
    {result : Reference} :
    Reads (freshReference name) before result after ↔
      result = ⟨before.nextId, name⟩ ∧ after = { before with nextId := before.nextId + 1 } := by
  constructor
  · rintro ⟨outcome, -⟩
    cases outcome
    exact ⟨rfl, rfl⟩
  · rintro ⟨rfl, rfl⟩
    exact ⟨rfl, rfl⟩

/-- It is seen whether the tokens end, and nothing is read. -/
theorem reads_atEnd_iff
    {before after : Cursor}
    {result : Bool} :
    Reads atEnd before result after ↔ result = before.rest.isEmpty ∧ after = before := by
  constructor
  · rintro ⟨outcome, -⟩
    cases outcome
    exact ⟨rfl, rfl⟩
  · rintro ⟨rfl, rfl⟩
    exact ⟨rfl, rfl⟩

/-- Whether the next token is of an admitted kind. -/
def nextIs (admitted : Token.Kind -> Bool) (tokens : List Token) : Bool :=
  tokens.head?.any fun token => admitted token.kind

@[simp] theorem nextIs_nil (admitted : Token.Kind -> Bool) : nextIs admitted [] = false := rfl

@[simp] theorem nextIs_cons
    (admitted : Token.Kind -> Bool)
    (token : Token)
    (tokens : List Token) :
    nextIs admitted (token :: tokens) = admitted token.kind := rfl

/-- It is seen what the next token is, and nothing is read. -/
theorem reads_check_iff
    {kind : Token.Kind}
    {before after : Cursor}
    {result : Bool} :
    Reads (check kind) before result after ↔
      result = nextIs (· == kind) before.rest ∧ after = before := by
  constructor
  · rintro ⟨outcome, -⟩
    cases outcome
    exact ⟨rfl, rfl⟩
  · rintro ⟨rfl, rfl⟩
    exact ⟨rfl, rfl⟩

/-- A token is read if it is admitted. -/
theorem reads_acceptIf_some_iff
    {admitted : Token.Kind -> Bool}
    {before after : Cursor}
    {token : Token} :
    Reads (acceptIf admitted) before (some token) after ↔
      ∃ rest, before.rest = token :: rest ∧ admitted token.kind = true ∧
        after = { before with rest := rest } := by
  unfold Reads acceptIf
  cases shape : before.rest with
  | nil => simp
  | cons next others =>
    by_cases admits : admitted next.kind = true
    · simp only [admits, if_true, EStateM.Result.ok.injEq, Option.some.injEq, List.cons.injEq]
      constructor
      · rintro ⟨⟨rfl, rfl⟩, -⟩
        exact ⟨others, ⟨rfl, rfl⟩, admits, rfl⟩
      · rintro ⟨rest, ⟨rfl, rfl⟩, -, rfl⟩
        exact ⟨⟨rfl, rfl⟩, rfl⟩
    · simp only [admits, Bool.false_eq_true, if_false, EStateM.Result.ok.injEq, reduceCtorEq,
        false_and, List.cons.injEq, false_iff, not_exists]
      rintro rest ⟨⟨rfl, rfl⟩, contradiction, -⟩
      exact admits contradiction

/-- No token is read if the next one is not admitted. -/
theorem reads_acceptIf_none_iff
    {admitted : Token.Kind -> Bool}
    {before after : Cursor} :
    Reads (acceptIf admitted) before none after ↔
      nextIs admitted before.rest = false ∧ after = before := by
  unfold Reads acceptIf
  cases shape : before.rest with
  | nil =>
    simp only [EStateM.Result.ok.injEq, true_and, nextIs_nil]
    constructor
    · rintro ⟨rfl, -⟩
      rfl
    · rintro rfl
      exact ⟨rfl, rfl⟩
  | cons next others =>
    by_cases admits : admitted next.kind = true
    · simp [admits]
    · simp only [admits, Bool.false_eq_true, if_false, EStateM.Result.ok.injEq, true_and,
        nextIs_cons]
      constructor
      · rintro ⟨rfl, -⟩
        rfl
      · rintro rfl
        exact ⟨rfl, rfl⟩

theorem reads_accept_some_iff
    {kind : Token.Kind}
    {before after : Cursor}
    {token : Token} :
    Reads (accept kind) before (some token) after ↔
      ∃ rest, before.rest = token :: rest ∧ token.kind = kind ∧
        after = { before with rest := rest } := by
  rw [accept, reads_acceptIf_some_iff]
  simp only [beq_iff_eq]

/-- A token is read if it is of the expected kind. -/
theorem reads_expect_iff
    {kind : Token.Kind}
    {what : String}
    {before after : Cursor}
    {token : Token} :
    Reads (expect kind what) before token after ↔
      ∃ rest, before.rest = token :: rest ∧ token.kind = kind ∧
        after = { before with rest := rest } := by
  refine (reads_bind_iff (keeps_accept kind) fun found => ?_).trans ?_
  · cases found with
    | none => exact keeps_fail _
    | some token => exact keeps_pure token
  constructor
  · rintro ⟨found, middle, accepted, finished⟩
    cases found with
    | none => exact absurd finished not_reads_fail
    | some other =>
      obtain ⟨rfl, rfl⟩ := reads_pure_iff.mp finished
      exact reads_accept_some_iff.mp accepted
  · intro accepted
    exact ⟨some token, after, reads_accept_some_iff.mpr accepted, reads_pure_iff.mpr ⟨rfl, rfl⟩⟩

/-- A declaration that is read without errors is read by the rule itself. -/
theorem reads_recovering_iff
    {rule : Parse Stmt}
    {before after : Cursor}
    {result : Option Stmt}
    (keeps : Keeps rule) :
    Reads (recovering rule) before result after ↔
      ∃ statement, result = some statement ∧ Reads rule before statement after := by
  have kept := (keeps before).1
  unfold Reads recovering
  cases outcome : rule before with
  | ok statement middle =>
    simp only [EStateM.Result.ok.injEq]
    constructor
    · rintro ⟨⟨rfl, rfl⟩, same⟩
      exact ⟨statement, rfl, ⟨rfl, rfl⟩, same⟩
    · rintro ⟨other, rfl, ⟨rfl, rfl⟩, same⟩
      exact ⟨⟨rfl, rfl⟩, same⟩
  | error error middle =>
    rw [outcome] at kept
    simp only [cursorAfter] at kept
    simp only [EStateM.Result.ok.injEq, reduceCtorEq, false_and, and_false, exists_false, iff_false]
    rintro ⟨⟨-, rfl⟩, same⟩
    simp only [Array.size_push] at same
    omega

/-! ## Repeated steps -/

/-- The steps that extend a result, each of which reads at least one token. -/
inductive Steps (step : α -> Parse (Option α)) : α -> Cursor -> α -> Cursor -> Prop
  | none {start : α} {cursor : Cursor} : Steps step start cursor start cursor
  | more
      {start middleResult result : α}
      {before middle after : Cursor}
      (steps : Steps step start before middleResult middle)
      (last : Reads (step middleResult) middle (some result) after)
      (shorter : after.rest.length < middle.rest.length) :
      Steps step start before result after

/-- One more step comes before the others. -/
theorem Steps.head
    {step : α -> Parse (Option α)}
    {start middleResult result : α}
    {before middle after : Cursor}
    (first : Reads (step start) before (some middleResult) middle)
    (shorter : middle.rest.length < before.rest.length)
    (steps : Steps step middleResult middle result after) :
    Steps step start before result after := by
  induction steps with
  | none => exact .more .none first shorter
  | more _ last lastShorter inductionHypothesis =>
    exact .more (inductionHypothesis first shorter) last lastShorter

/-- Either there are no steps, or there is a first one. -/
theorem Steps.eq_or_head
    {step : α -> Parse (Option α)}
    {start result : α}
    {before after : Cursor}
    (steps : Steps step start before result after) :
    (result = start ∧ after = before) ∨
      ∃ middleResult middle,
        Reads (step start) before (some middleResult) middle ∧
          middle.rest.length < before.rest.length ∧
          Steps step middleResult middle result after := by
  induction steps with
  | none => exact .inl ⟨rfl, rfl⟩
  | more _ last shorter inductionHypothesis =>
    rcases inductionHypothesis with ⟨rfl, rfl⟩ | ⟨middleResult, middle, first, less, others⟩
    · exact .inr ⟨_, _, last, shorter, .none⟩
    · exact .inr ⟨middleResult, middle, first, less, .more others last shorter⟩

theorem keeps_afterStep
    {step : α -> Parse (Option α)}
    (keeps : ∀ result, Keeps (step result))
    (count : Nat)
    (start : α)
    (found : Option α) :
    Keeps
      (match found with
        | some longer => extendAtMost step count longer
        | none => (pure start : Parse α)) := by
  cases found with
  | none => exact keeps_pure start
  | some longer => exact keeps_extendAtMost keeps count longer

/-- Enough rounds carry out all steps, up to where no further one is found. -/
theorem reads_extendAtMost_of_steps
    {step : α -> Parse (Option α)}
    {count : Nat}
    {start result : α}
    {before after : Cursor}
    (enough : before.rest.length ≤ count)
    (steps : Steps step start before result after)
    (finished : Reads (step result) after none after) :
    Reads (extendAtMost step count start) before result after := by
  induction count generalizing start before with
  | zero =>
    rcases steps.eq_or_head with ⟨rfl, rfl⟩ | ⟨_, _, _, shorter, _⟩
    · exact reads_pure_iff.mpr ⟨rfl, rfl⟩
    · omega
  | succ count inductionHypothesis =>
    rcases steps.eq_or_head with ⟨rfl, rfl⟩ | ⟨longer, next, first, shorter, others⟩
    · exact finished.bind (reads_pure_iff.mpr ⟨rfl, rfl⟩)
    · exact first.bind (inductionHypothesis (by omega) others)

/-- What is read in a number of rounds is read in steps, and no further step is
found unless the tokens have run out. -/
theorem steps_of_reads_extendAtMost
    {step : α -> Parse (Option α)}
    (keeps : ∀ result, Keeps (step result))
    (shrinks : ∀ ⦃start result before after⦄, Reads (step start) before (some result) after ->
      after.rest.length < before.rest.length)
    {count : Nat}
    {start result : α}
    {before after : Cursor}
    (enough : before.rest.length ≤ count)
    (reads : Reads (extendAtMost step count start) before result after) :
    ∃ middle, Steps step start before result middle ∧
      (Reads (step result) middle none after ∨ (after = middle ∧ after.rest = [])) := by
  induction count generalizing start before with
  | zero =>
    obtain ⟨rfl, rfl⟩ := reads_pure_iff.mp reads
    exact ⟨after, .none, .inr ⟨rfl, List.eq_nil_of_length_eq_zero (by omega)⟩⟩
  | succ count inductionHypothesis =>
    obtain ⟨found, next, first, others⟩ :=
      (reads_bind_iff (keeps start) (keeps_afterStep keeps count start)).mp reads
    cases found with
    | none =>
      obtain ⟨rfl, rfl⟩ := reads_pure_iff.mp others
      exact ⟨before, .none, .inl first⟩
    | some longer =>
      have shorter := shrinks first
      obtain ⟨middle, steps, finished⟩ := inductionHypothesis (by omega) others
      exact ⟨middle, steps.head first shorter, finished⟩

theorem keeps_afterFirstStep
    {step : α -> Parse (Option α)}
    (keeps : ∀ result, Keeps (step result))
    (start : α)
    (found : Option α) :
    Keeps
      (match found with
        | some longer => get >>= fun cursor => extendAtMost step cursor.rest.length longer
        | none => (pure start : Parse α)) := by
  cases found with
  | none => exact keeps_pure start
  | some longer => exact keeps_get.bind fun cursor => keeps_extendAtMost keeps _ longer

theorem reads_get_bind_iff
    {rest : Cursor -> Parse β}
    {before after : Cursor}
    {result : β} :
    Reads (get >>= rest) before result after ↔ Reads (rest before) before result after :=
  Iff.rfl

/-- Extending a result carries out all steps, up to where no further one is
found. -/
theorem reads_extend_of_steps
    {step : α -> Parse (Option α)}
    {start result : α}
    {before after : Cursor}
    (steps : Steps step start before result after)
    (finished : Reads (step result) after none after) :
    Reads (extend step start) before result after := by
  rcases steps.eq_or_head with ⟨rfl, rfl⟩ | ⟨longer, next, first, -, others⟩
  · exact finished.bind (reads_pure_iff.mpr ⟨rfl, rfl⟩)
  · refine first.bind (reads_get_bind_iff.mpr ?_)
    exact reads_extendAtMost_of_steps (Nat.le_refl _) others finished

/-- What is read by extending a result is read in steps, and no further step is
found unless the tokens have run out. -/
theorem steps_of_reads_extend
    {step : α -> Parse (Option α)}
    (keeps : ∀ result, Keeps (step result))
    (shrinks : ∀ ⦃start result before after⦄, Reads (step start) before (some result) after ->
      after.rest.length < before.rest.length)
    {start result : α}
    {before after : Cursor}
    (reads : Reads (extend step start) before result after) :
    ∃ middle, Steps step start before result middle ∧
      (Reads (step result) middle none after ∨ (after = middle ∧ after.rest = [])) := by
  obtain ⟨found, next, first, others⟩ :=
    (reads_bind_iff (keeps start) (keeps_afterFirstStep keeps start)).mp reads
  cases found with
  | none =>
    obtain ⟨rfl, rfl⟩ := reads_pure_iff.mp others
    exact ⟨before, .none, .inl first⟩
  | some longer =>
    have shorter := shrinks first
    obtain ⟨middle, steps, finished⟩ :=
      steps_of_reads_extendAtMost keeps shrinks (Nat.le_refl _) (reads_get_bind_iff.mp others)
    exact ⟨middle, steps.head first shorter, finished⟩

end Parse
end TreeWalk
