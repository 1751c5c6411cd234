import TreeWalk.Proofs.Parse.Reading
import TreeWalk.Proofs.Renumbering

/-!
# Reading an excerpt

A reader is run on an excerpt of the tokens: once with the other tokens behind it,
and once on its own, with the end of the input behind it and other numbers for its
references.  It finds the same in both runs, up to the numbers, if the first run
ends within the excerpt.  Where it stops at the end of the excerpt it may have
looked at the token behind, so some readers keep in step only while there is more
of the excerpt to read.  These are always followed by one that reads a token.
-/

namespace TreeWalk
namespace Parse

/-- An excerpt of the tokens of a program: what follows it, the tokens that end
the input of either run, and how far the numbers and errors of the runs are
apart. -/
structure Excerpt where
  following : List Token
  wholeEnd : Token
  ownEnd : Token
  shift : Nat
  wholeErrors : List SyntaxError
  ownErrors : List SyntaxError
  sameEnd : following = [] -> ownEnd = wholeEnd

namespace Excerpt

/-- The number that a reference of the excerpt has in the whole. -/
def number (excerpt : Excerpt) (id : Nat) : Nat :=
  id + excerpt.shift

/-- Two cursors are at the same token of an excerpt. -/
structure Cut (excerpt : Excerpt) (whole own : Cursor) : Prop where
  rest : whole.rest = own.rest ++ excerpt.following
  wholeEnd : whole.endToken = excerpt.wholeEnd
  ownEnd : own.endToken = excerpt.ownEnd
  nextId : whole.nextId = own.nextId + excerpt.shift
  errors : ∃ found, whole.errors.toList = excerpt.wholeErrors ++ found ∧
    own.errors.toList = excerpt.ownErrors ++ found

/-- There is more of the excerpt to read, or nothing follows it. -/
def Sees (excerpt : Excerpt) (rest : List Token) : Prop :=
  rest ≠ [] ∨ excerpt.following = []

variable {excerpt : Excerpt} {whole own : Cursor}

/-- What is left of the excerpt in the whole is what is left of it on its own. -/
theorem Cut.left_eq
    {left : List Token}
    (cut : excerpt.Cut whole own)
    (split : whole.rest = left ++ excerpt.following) :
    left = own.rest :=
  List.append_cancel_right (split.symm.trans cut.rest)

/-- Before the end of the excerpt, both cursors have the same token next. -/
theorem Cut.head?_eq (cut : excerpt.Cut whole own) (sees : excerpt.Sees own.rest) :
    whole.rest.head? = own.rest.head? := by
  rw [cut.rest]
  rcases sees with more | nothing
  · rw [List.head?_append, Option.or_of_isSome (List.isSome_head?.mpr more)]
  · rw [nothing, List.append_nil]

/-- Before the end of the excerpt, both cursors are at the end or neither is. -/
theorem Cut.isEmpty_eq (cut : excerpt.Cut whole own) (sees : excerpt.Sees own.rest) :
    whole.rest.isEmpty = own.rest.isEmpty := by
  rw [Bool.eq_iff_iff, List.isEmpty_iff, List.isEmpty_iff, ← List.head?_eq_none_iff,
    ← List.head?_eq_none_iff, cut.head?_eq sees]

/-- Before the end of the excerpt, an error would be noted at the same token. -/
theorem Cut.next_eq (cut : excerpt.Cut whole own) (sees : excerpt.Sees own.rest) :
    whole.next = own.next := by
  rw [Cursor.next, Cursor.next, List.headD_eq_head?_getD, List.headD_eq_head?_getD,
    cut.head?_eq sees, cut.wholeEnd, cut.ownEnd]
  rcases sees with more | nothing
  · cases isRest : own.rest with
    | nil => exact absurd isRest more
    | cons token rest => rfl
  · rw [excerpt.sameEnd nothing]

/-- Both runs read the same tokens, and nothing else changes. -/
theorem Cut.advance
    {rest : List Token}
    (cut : excerpt.Cut whole own) :
    excerpt.Cut { whole with rest := rest ++ excerpt.following } { own with rest := rest } :=
  ⟨rfl, cut.wholeEnd, cut.ownEnd, cut.nextId, cut.errors⟩

/-- Both runs note the same error. -/
theorem Cut.noteError
    (cut : excerpt.Cut whole own)
    (error : SyntaxError) :
    excerpt.Cut { whole with errors := whole.errors.push error }
      { own with errors := own.errors.push error } := by
  obtain ⟨found, wholeErrors, ownErrors⟩ := cut.errors
  refine ⟨cut.rest, cut.wholeEnd, cut.ownEnd, cut.nextId, found ++ [error], ?_, ?_⟩
  · rw [Array.toList_push, wholeErrors, List.append_assoc]
  · rw [Array.toList_push, ownErrors, List.append_assoc]

/-- Before a token was read, there was more to read. -/
theorem Sees.append
    {left : List Token}
    (sees : excerpt.Sees left)
    (used : List Token) :
    excerpt.Sees (used ++ left) :=
  sees.imp_left fun more isEmpty => more (List.append_eq_nil_iff.mp isEmpty).2

end Excerpt

/-- A result is that of the run on the excerpt, but for a change. -/
def Agrees {α : Type} (change : α -> α) (result own : α) : Prop :=
  result = change own

/-- A cursor that has been moved on, or not at all. -/
structure Onward (before after : Cursor) : Prop where
  rest : after.rest <:+ before.rest
  endToken : after.endToken = before.endToken

theorem Onward.refl (cursor : Cursor) : Onward cursor cursor :=
  ⟨List.suffix_refl _, rfl⟩

theorem Onward.trans
    {before middle after : Cursor}
    (one : Onward before middle)
    (other : Onward middle after) :
    Onward before after :=
  ⟨other.rest.trans one.rest, other.endToken.trans one.endToken⟩

/-- What is left of an excerpt was left of it before. -/
theorem Onward.split
    {excerpt : Excerpt}
    {before after : Cursor}
    {left : List Token}
    (onward : Onward before after)
    (split : after.rest = left ++ excerpt.following) :
    ∃ used, before.rest = used ++ left ++ excerpt.following := by
  obtain ⟨used, isBefore⟩ := onward.rest
  refine ⟨used, ?_⟩
  rw [← isBefore, split, List.append_assoc]

/-- No result. -/
def never {α : Type} (_ : α) : Bool :=
  false

/-- Every result. -/
def always {α : Type} (_ : α) : Bool :=
  true

/-- A reader moves on, and reads at least one token if it comes to one of some
results.  If `valid` holds, a reader on the whole of the tokens and a reader on
the excerpt find the same.  If `closed` holds, this includes the case that they
stop at the end of the excerpt. -/
structure Tracks
    {α : Type}
    (excerpt : Excerpt)
    (closed : Bool)
    (spends : α -> Bool)
    (valid : Prop)
    (related : α -> α -> Prop)
    (reader ownReader : Parse α) : Prop where
  onward : ∀ cursor, Onward cursor (cursorAfter (reader cursor))
  shorter : ∀ cursor result after, reader cursor = .ok result after -> spends result = true ->
    after.rest.length < cursor.rest.length
  succeeds : valid -> ∀ cursor own result after left, excerpt.Cut cursor own ->
    reader cursor = .ok result after -> after.rest = left ++ excerpt.following ->
    closed = true ∨ excerpt.Sees left ->
      ∃ ownResult ownAfter, ownReader own = .ok ownResult ownAfter ∧
        related result ownResult ∧ excerpt.Cut after ownAfter
  fails : valid -> ∀ cursor own error after left, excerpt.Cut cursor own ->
    reader cursor = .error error after -> after.rest = left ++ excerpt.following ->
    excerpt.Sees left ->
      ∃ ownAfter, ownReader own = .error error ownAfter ∧ excerpt.Cut after ownAfter

section Rules

variable
  {α β : Type}
  {excerpt : Excerpt}
  {closed closedFirst : Bool}
  {valid : Prop}
  {related : α -> α -> Prop}
  {relatedLater : β -> β -> Prop}

/-- A reader tracks no reader in particular under a condition that is not met. -/
theorem Tracks.vacuous
    {reader ownReader other : Parse α}
    {spends : α -> Bool}
    {impossible : Prop}
    (tracks : Tracks excerpt closedFirst spends valid related reader ownReader)
    (isImpossible : ¬ impossible) :
    Tracks excerpt closed spends impossible related reader other where
  onward := tracks.onward
  shorter := tracks.shorter
  succeeds isValid := absurd isValid isImpossible
  fails isValid := absurd isValid isImpossible

/-- A reader that tracks another one does so under a stronger condition. -/
theorem Tracks.given
    {reader ownReader : Parse α}
    {spends : α -> Bool}
    {stronger : Prop}
    (tracks : Tracks excerpt closed spends valid related reader ownReader)
    (implies : stronger -> valid) :
    Tracks excerpt closed spends stronger related reader ownReader where
  onward := tracks.onward
  shorter := tracks.shorter
  succeeds isStronger := tracks.succeeds (implies isStronger)
  fails isStronger := tracks.fails (implies isStronger)

/-- A reader may be known for other reasons to read a token. -/
theorem Tracks.shortening
    {reader ownReader : Parse α}
    {spends spendsMore : α -> Bool}
    (tracks : Tracks excerpt closed spends valid related reader ownReader)
    (shorter : ∀ cursor result after, reader cursor = .ok result after ->
      spendsMore result = true -> after.rest.length < cursor.rest.length) :
    Tracks excerpt closed spendsMore valid related reader ownReader where
  onward := tracks.onward
  shorter := shorter
  succeeds := tracks.succeeds
  fails := tracks.fails

/-- Less may be claimed of two readers. -/
theorem Tracks.mono
    {reader ownReader : Parse α}
    {spends spendsLess : α -> Bool}
    {weaker : α -> α -> Prop}
    (tracks : Tracks excerpt closedFirst spends valid related reader ownReader)
    (closes : closed = true -> closedFirst = true)
    (less : ∀ result, spendsLess result = true -> spends result = true)
    (implies : ∀ result other, related result other -> weaker result other) :
    Tracks excerpt closed spendsLess valid weaker reader ownReader where
  onward := tracks.onward
  shorter cursor result after ended spent :=
    tracks.shorter cursor result after ended (less result spent)
  succeeds isValid cursor own result after left cut ended split sees := by
    obtain ⟨ownResult, ownAfter, ownEnded, holds, cutAfter⟩ :=
      tracks.succeeds isValid cursor own result after left cut ended split (sees.imp_left closes)
    exact ⟨ownResult, ownAfter, ownEnded, implies _ _ holds, cutAfter⟩
  fails := tracks.fails

/-- Both runs find related results without reading anything. -/
theorem tracks_pure
    {result other : α}
    (holds : valid -> related result other) :
    Tracks excerpt closed never valid related (pure result) (pure other) where
  onward cursor := .refl cursor
  shorter cursor result after ended spent := nomatch spent
  succeeds isValid cursor own result after left cut ended split sees := by
    cases ended
    exact ⟨other, own, rfl, holds isValid, cut⟩
  fails isValid cursor own error after left cut ended split sees := nomatch ended

/-- Both runs find that there is no more. -/
theorem tracks_none : Tracks excerpt closed Option.isSome valid (Option.Rel related) (pure none)
    (pure none) where
  onward cursor := .refl cursor
  shorter cursor result after ended spent := by
    cases ended
    exact nomatch spent
  succeeds isValid cursor own result after left cut ended split sees := by
    cases ended
    exact ⟨none, own, rfl, .none, cut⟩
  fails isValid cursor own error after left cut ended split sees := nomatch ended

/-- Both runs fail at the same token. -/
theorem tracks_fail
    {spends : α -> Bool}
    (fault : SyntaxFault) :
    Tracks excerpt closed spends valid related (fail fault) (fail fault) where
  onward cursor := .refl cursor
  shorter cursor result after ended spent := nomatch ended
  succeeds isValid cursor own result after left cut ended split sees := nomatch ended
  fails isValid cursor own error after left cut ended split sees := by
    cases ended
    rw [cut.left_eq split] at sees
    refine ⟨own, ?_, cut⟩
    rw [fail, cut.next_eq sees]

/-- One reader after the other.  Where the first one is in step only within the
excerpt, the second one has to read a token. -/
theorem Tracks.bind
    {reader ownReader : Parse α}
    {rest ownRest : α -> Parse β}
    {spendsFirst : α -> Bool}
    {spendsSecond spends : β -> Bool}
    (first : Tracks excerpt closedFirst spendsFirst valid related reader ownReader)
    (second : ∀ result other, Tracks excerpt closed spendsSecond (valid ∧ related result other)
      relatedLater (rest result) (ownRest other))
    (reaches : closed = true -> closedFirst = true ∨ ∀ result, spendsSecond result = true)
    (one : ∀ result later, spends later = true ->
      spendsFirst result = true ∨ spendsSecond later = true) :
    Tracks excerpt closed spends valid relatedLater (reader >>= rest)
      (ownReader >>= ownRest) where
  onward cursor := by
    have moved := first.onward cursor
    cases ended : reader cursor with
    | error error after =>
      rw [ended] at moved
      rw [bind_of_error ended]
      exact moved
    | ok result middle =>
      rw [ended] at moved
      rw [bind_of_ok ended]
      exact moved.trans ((second result result).onward middle)
  shorter cursor later after ended spent := by
    obtain ⟨result, middle, firstEnded, laterEnded⟩ := bind_eq_ok_iff.mp ended
    have moved := first.onward cursor
    rw [firstEnded] at moved
    have movedLater := (second result result).onward middle
    rw [laterEnded] at movedLater
    have before : middle.rest.length ≤ cursor.rest.length := moved.rest.length_le
    have behind : after.rest.length ≤ middle.rest.length := movedLater.rest.length_le
    rcases one result later spent with spentFirst | spentSecond
    · have short := first.shorter cursor result middle firstEnded spentFirst
      omega
    · have short := (second result result).shorter middle later after laterEnded spentSecond
      omega
  succeeds isValid cursor own later after left cut ended split sees := by
    obtain ⟨result, middle, firstEnded, laterEnded⟩ := bind_eq_ok_iff.mp ended
    have moved := (second result result).onward middle
    rw [laterEnded] at moved
    obtain ⟨used, splitMiddle⟩ := moved.split split
    -- Where nothing behind the two is seen, the first one sees a token that the second one spends.
    have seesMiddle : closedFirst = true ∨ excerpt.Sees (used ++ left) := by
      rcases sees with isClosed | sees
      · refine (reaches isClosed).imp_right fun spendsAll => .inl fun isEmpty => ?_
        have short := (second result result).shorter middle later after laterEnded (spendsAll later)
        rw [splitMiddle, split, isEmpty, (List.append_eq_nil_iff.mp isEmpty).2] at short
        exact Nat.lt_irrefl _ short
      · exact .inr (sees.append used)
    obtain ⟨ownResult, ownMiddle, ownEnded, holds, cutMiddle⟩ :=
      first.succeeds isValid cursor own result middle _ cut firstEnded splitMiddle seesMiddle
    obtain ⟨ownLater, ownAfter, ownLaterEnded, holdsLater, cutAfter⟩ :=
      (second result ownResult).succeeds ⟨isValid, holds⟩ middle ownMiddle later after left
        cutMiddle laterEnded split sees
    exact ⟨ownLater, ownAfter, (bind_of_ok ownEnded _).trans ownLaterEnded, holdsLater, cutAfter⟩
  fails isValid cursor own error after left cut ended split sees := by
    cases firstEnded : reader cursor with
    | error firstError firstAfter =>
      rw [bind_of_error firstEnded] at ended
      cases ended
      obtain ⟨ownAfter, ownEnded, cutAfter⟩ :=
        first.fails isValid cursor own error after left cut firstEnded split sees
      exact ⟨ownAfter, bind_of_error ownEnded _, cutAfter⟩
    | ok result middle =>
      rw [bind_of_ok firstEnded] at ended
      have moved := (second result result).onward middle
      rw [ended] at moved
      obtain ⟨used, splitMiddle⟩ := moved.split split
      obtain ⟨ownResult, ownMiddle, ownEnded, holds, cutMiddle⟩ :=
        first.succeeds isValid cursor own result middle _ cut firstEnded splitMiddle
          (.inr (sees.append used))
      obtain ⟨ownAfter, ownLaterEnded, cutAfter⟩ :=
        (second result ownResult).fails ⟨isValid, holds⟩ middle ownMiddle error after left
          cutMiddle ended split sees
      exact ⟨ownAfter, (bind_of_ok ownEnded _).trans ownLaterEnded, cutAfter⟩

/-- A reader that reads a token, and then another one. -/
theorem Tracks.spending
    {reader ownReader : Parse α}
    {rest ownRest : α -> Parse β}
    (first : Tracks excerpt true always valid related reader ownReader)
    (second : ∀ result other, Tracks excerpt closed never (valid ∧ related result other)
      relatedLater (rest result) (ownRest other)) :
    Tracks excerpt closed always valid relatedLater (reader >>= rest) (ownReader >>= ownRest) :=
  first.bind second (fun _ => .inl rfl) fun _ _ _ => .inl rfl

/-- A reader that need not read a token, and then another one. -/
theorem Tracks.keeping
    {reader ownReader : Parse α}
    {rest ownRest : α -> Parse β}
    {spendsFirst : α -> Bool}
    {spends : β -> Bool}
    (first : Tracks excerpt closed spendsFirst valid related reader ownReader)
    (second : ∀ result other, Tracks excerpt closed spends (valid ∧ related result other)
      relatedLater (rest result) (ownRest other)) :
    Tracks excerpt closed spends valid relatedLater (reader >>= rest) (ownReader >>= ownRest) :=
  first.bind second .inl fun _ _ => .inr

/-- A reader that may look behind the excerpt, and then one that reads a token. -/
theorem Tracks.peeking
    {reader ownReader : Parse α}
    {rest ownRest : α -> Parse β}
    {spendsFirst : α -> Bool}
    (first : Tracks excerpt closedFirst spendsFirst valid related reader ownReader)
    (second : ∀ result other, Tracks excerpt closed always (valid ∧ related result other)
      relatedLater (rest result) (ownRest other)) :
    Tracks excerpt closed always valid relatedLater (reader >>= rest) (ownReader >>= ownRest) :=
  first.bind second (fun _ => .inr fun _ => rfl) fun _ _ _ => .inr rfl

/-- Readers in step within the excerpt, one after the other. -/
theorem Tracks.loosely
    {reader ownReader : Parse α}
    {rest ownRest : α -> Parse β}
    {spendsFirst : α -> Bool}
    {spends : β -> Bool}
    (first : Tracks excerpt closedFirst spendsFirst valid related reader ownReader)
    (second : ∀ result other, Tracks excerpt false spends (valid ∧ related result other)
      relatedLater (rest result) (ownRest other)) :
    Tracks excerpt false spends valid relatedLater (reader >>= rest) (ownReader >>= ownRest) :=
  first.bind second (fun isClosed => nomatch isClosed) fun _ _ => .inr

/-- A reader that is in step is so within the excerpt. -/
theorem Tracks.within
    {reader ownReader : Parse α}
    {spends : α -> Bool}
    (tracks : Tracks excerpt closed spends valid related reader ownReader) :
    Tracks excerpt false spends valid related reader ownReader :=
  tracks.mono (fun isClosed => nomatch isClosed) (fun _ => id) fun _ _ => id

/-- A reader need not be known to read a token. -/
theorem Tracks.anyway
    {reader ownReader : Parse α}
    {spends : α -> Bool}
    (tracks : Tracks excerpt closed spends valid related reader ownReader) :
    Tracks excerpt closed never valid related reader ownReader :=
  tracks.mono id (fun _ isNever => nomatch isNever) fun _ _ => id

/-- A reader that always reads a token does so for certain results. -/
theorem Tracks.notably
    {reader ownReader : Parse α}
    {spends : α -> Bool}
    (tracks : Tracks excerpt closed always valid related reader ownReader) :
    Tracks excerpt closed spends valid related reader ownReader :=
  tracks.mono id (fun _ _ => rfl) fun _ _ => id

/-! ## Basic readers -/

/-- A reader that looks at the next token and does not read it. -/
theorem tracks_report (token : Token) (fault : SyntaxFault) :
    Tracks excerpt true never valid (fun _ _ => True) (report token fault)
      (report token fault) where
  onward cursor := ⟨List.suffix_refl _, rfl⟩
  shorter cursor result after ended spent := nomatch spent
  succeeds isValid cursor own result after left cut ended split sees := by
    cases ended
    exact ⟨(), _, rfl, trivial, cut.noteError _⟩
  fails isValid cursor own error after left cut ended split sees := nomatch ended

/-- Both runs note the same error and go on. -/
theorem tracks_reportNext (fault : SyntaxFault) :
    Tracks excerpt false never valid (fun _ _ => True) (reportNext fault) (reportNext fault) where
  onward cursor := ⟨List.suffix_refl _, rfl⟩
  shorter cursor result after ended spent := nomatch spent
  succeeds isValid cursor own result after left cut ended split sees := by
    cases ended
    rcases sees with isClosed | sees
    · cases isClosed
    · rw [cut.left_eq split] at sees
      refine ⟨(), _, rfl, trivial, ?_⟩
      rw [← cut.next_eq sees]
      exact cut.noteError _
  fails isValid cursor own error after left cut ended split sees := nomatch ended

/-- A reference has the number of the excerpt, shifted, in the whole. -/
theorem tracks_freshReference
    {name ownName : Token}
    (sameName : valid -> name = ownName) :
    Tracks excerpt true never valid (Agrees (Reference.renumber excerpt.number))
      (freshReference name) (freshReference ownName) where
  onward cursor := ⟨List.suffix_refl _, rfl⟩
  shorter cursor result after ended spent := nomatch spent
  succeeds isValid cursor own result after left cut ended split sees := by
    cases ended
    obtain rfl := sameName isValid
    refine ⟨_, _, rfl, ?_, cut.rest, cut.wholeEnd, cut.ownEnd, ?_, cut.errors⟩
    · exact congrArg (Reference.mk · name) cut.nextId
    · dsimp only
      rw [cut.nextId]
      omega
  fails isValid cursor own error after left cut ended split sees := nomatch ended

/-- A reader that looks at what is left and reads nothing. -/
theorem tracks_look
    {observe : Cursor -> α}
    (same : ∀ cursor own, excerpt.Cut cursor own -> excerpt.Sees own.rest ->
      observe cursor = observe own) :
    Tracks excerpt false never valid (· = ·) (fun cursor => .ok (observe cursor) cursor)
      (fun cursor => .ok (observe cursor) cursor) where
  onward cursor := .refl cursor
  shorter cursor result after ended spent := nomatch spent
  succeeds isValid cursor own result after left cut ended split sees := by
    cases ended
    rcases sees with isClosed | sees
    · cases isClosed
    · rw [cut.left_eq split] at sees
      exact ⟨_, own, rfl, same cursor own cut sees, cut⟩
  fails isValid cursor own error after left cut ended split sees := nomatch ended

/-- Before the end of the excerpt, both runs see whether the tokens end. -/
theorem tracks_atEnd : Tracks excerpt false never valid (· = ·) atEnd atEnd :=
  tracks_look fun _ _ cut sees => cut.isEmpty_eq sees

/-- Before the end of the excerpt, both runs see the next token. -/
theorem tracks_check (kind : Token.Kind) :
    Tracks excerpt false never valid (· = ·) (check kind) (check kind) :=
  tracks_look fun _ _ cut sees => congrArg _ (cut.head?_eq sees)

/-- A token is read, or nothing is. -/
theorem acceptIf_cases (admitted : Token.Kind -> Bool) (cursor : Cursor) :
    acceptIf admitted cursor = .ok none cursor ∨
      ∃ token rest, cursor.rest = token :: rest ∧ admitted token.kind = true ∧
        acceptIf admitted cursor = .ok (some token) { cursor with rest := rest } := by
  unfold acceptIf
  split
  · rename_i token rest isRest
    split
    · rename_i isAdmitted
      exact .inr ⟨token, rest, isRest, isAdmitted, rfl⟩
    · exact .inl rfl
  · exact .inl rfl

/-- At the end, no token is read. -/
theorem acceptIf_bind_of_end
    {cursor : Cursor}
    (isEmpty : cursor.rest = [])
    (admitted : Token.Kind -> Bool)
    (rest : Option Token -> Parse β) :
    (acceptIf admitted >>= rest) cursor = rest none cursor := by
  refine bind_of_ok ?_ rest
  rw [acceptIf, isEmpty]

/-- A token is accepted by both readers or by none of them. -/
theorem acceptIf_own
    {cursor own : Cursor}
    {admitted : Token.Kind -> Bool}
    (cut : excerpt.Cut cursor own) :
    (acceptIf admitted cursor = .ok none cursor -> acceptIf admitted own = .ok none own) ∧
      ∀ token rest left, cursor.rest = token :: rest -> rest = left ++ excerpt.following ->
        acceptIf admitted cursor = .ok (some token) { cursor with rest := rest } ->
          acceptIf admitted own = .ok (some token) { own with rest := left } := by
  have split := cut.rest
  cases isOwn : own.rest with
  | nil =>
    refine ⟨fun _ => ?_, fun token rest left isRest isLeft _ => ?_⟩
    · rw [acceptIf, isOwn]
    · rw [isOwn, List.nil_append, isRest, isLeft] at split
      have lengths := congrArg List.length split
      rw [List.length_cons, List.length_append] at lengths
      omega
  | cons head tail =>
    rw [isOwn, List.cons_append] at split
    refine ⟨fun refused => ?_, fun token rest left isRest isLeft accepted => ?_⟩
    · rw [acceptIf, split] at refused
      rw [acceptIf, isOwn]
      dsimp only at refused ⊢
      split at refused
      · cases refused
      · rename_i notAdmitted
        rw [if_neg notAdmitted]
    · rw [isRest, List.cons.injEq] at split
      obtain ⟨rfl, isTail⟩ := split
      rw [isLeft] at isTail
      obtain rfl := List.append_cancel_right isTail
      rw [acceptIf, isRest] at accepted
      rw [acceptIf, isOwn]
      dsimp only at accepted ⊢
      split at accepted
      · rename_i isAdmitted
        rw [if_pos isAdmitted]
      · cases accepted

/-- Go on in one of two ways, depending on whether the next token is admitted. -/
theorem tracks_acceptIf
    {admitted : Token.Kind -> Bool}
    {rest ownRest : Option Token -> Parse β}
    {spends : β -> Bool}
    (without : Tracks excerpt closed spends valid relatedLater (rest none) (ownRest none))
    (behind : ∀ token, Tracks excerpt closed never valid relatedLater (rest (some token))
      (ownRest (some token))) :
    Tracks excerpt closed spends valid relatedLater (acceptIf admitted >>= rest)
      (acceptIf admitted >>= ownRest) where
  onward cursor := by
    rcases acceptIf_cases admitted cursor with refused | ⟨token, others, isRest, _, accepted⟩
    · rw [bind_of_ok refused]
      exact without.onward cursor
    · rw [bind_of_ok accepted]
      have step : Onward cursor { cursor with rest := others } := by
        refine ⟨?_, rfl⟩
        rw [isRest]
        exact List.suffix_cons _ _
      exact step.trans ((behind token).onward _)
  shorter cursor result after ended spent := by
    rcases acceptIf_cases admitted cursor with refused | ⟨token, others, isRest, _, accepted⟩
    · rw [bind_of_ok refused] at ended
      exact without.shorter cursor result after ended spent
    · rw [bind_of_ok accepted] at ended
      have moved := ((behind token).onward { cursor with rest := others }).rest.length_le
      rw [ended] at moved
      rw [isRest, List.length_cons]
      exact Nat.lt_succ_of_le moved
  succeeds isValid cursor own result after left cut ended split sees := by
    rcases acceptIf_cases admitted cursor with refused | ⟨token, others, isRest, _, accepted⟩
    · rw [bind_of_ok refused] at ended
      rw [bind_of_ok ((acceptIf_own cut).1 refused)]
      exact without.succeeds isValid cursor own result after left cut ended split sees
    · rw [bind_of_ok accepted] at ended
      have moved := (behind token).onward { cursor with rest := others }
      rw [ended] at moved
      -- The rest goes on from here, so the token is not one that follows the excerpt.
      obtain ⟨used, isOthers⟩ : ∃ used, others = used ++ left ++ excerpt.following :=
        moved.split split
      rw [bind_of_ok ((acceptIf_own cut).2 token others _ isRest isOthers accepted)]
      refine (behind token).succeeds isValid _ _ result after left ?_ ended split sees
      rw [isOthers]
      exact cut.advance
  fails isValid cursor own error after left cut ended split sees := by
    rcases acceptIf_cases admitted cursor with refused | ⟨token, others, isRest, _, accepted⟩
    · rw [bind_of_ok refused] at ended
      rw [bind_of_ok ((acceptIf_own cut).1 refused)]
      exact without.fails isValid cursor own error after left cut ended split sees
    · rw [bind_of_ok accepted] at ended
      have moved := (behind token).onward { cursor with rest := others }
      rw [ended] at moved
      obtain ⟨used, isOthers⟩ : ∃ used, others = used ++ left ++ excerpt.following :=
        moved.split split
      rw [bind_of_ok ((acceptIf_own cut).2 token others _ isRest isOthers accepted)]
      refine (behind token).fails isValid _ _ error after left ?_ ended split sees
      rw [isOthers]
      exact cut.advance

/-- Both runs read the token that is expected, or fail where it is missing. -/
theorem tracks_expect (kind : Token.Kind) (what : String) :
    Tracks excerpt true always valid (· = ·) (expect kind what) (expect kind what) :=
  tracks_acceptIf (tracks_fail _) fun _ => tracks_pure fun _ => rfl

/-- Go on in one of two ways, depending on a test. -/
theorem Tracks.choose
    {test : Parse Bool}
    {rest ownRest : Bool -> Parse β}
    {spendsFirst : Bool -> Bool}
    {spends : β -> Bool}
    (tests : Tracks excerpt closedFirst spendsFirst valid (· = ·) test test)
    (reaches : closed = true -> closedFirst = true ∨ ∀ result, spends result = true)
    (holds : Tracks excerpt closed spends valid relatedLater (rest true) (ownRest true))
    (holdsNot : Tracks excerpt closed spends valid relatedLater (rest false) (ownRest false)) :
    Tracks excerpt closed spends valid relatedLater (test >>= rest) (test >>= ownRest) := by
  refine tests.bind (fun result other => ?_) reaches fun _ _ => .inr
  cases result <;> cases other
  · exact holdsNot.given (·.1)
  · exact holdsNot.vacuous fun isValid => nomatch isValid.2
  · exact holds.vacuous fun isValid => nomatch isValid.2
  · exact holds.given (·.1)

/-- A step that reads a token if it finds more, and that finds nothing where
nothing is left. -/
structure Advances (step : α -> Parse (Option α)) : Prop where
  shorter : ∀ start cursor longer after, step start cursor = .ok (some longer) after ->
    after.rest.length < cursor.rest.length
  idle : ∀ start cursor, cursor.rest = [] -> step start cursor = .ok none cursor

/-- At the end, steps that need a token are over. -/
theorem Advances.extendAtMost_of_end
    {step : α -> Parse (Option α)}
    (advances : Advances step)
    {start : α}
    {cursor : Cursor}
    (isEmpty : cursor.rest = [])
    (count : Nat) :
    extendAtMost step count start cursor = .ok start cursor := by
  cases count with
  | zero => rfl
  | succ count => exact bind_of_ok (advances.idle start cursor isEmpty) _

/-- As many rounds as there are tokens are enough. -/
theorem Advances.extendAtMost_eq
    {step : α -> Parse (Option α)}
    (advances : Advances step)
    {count more : Nat}
    {start : α}
    {cursor : Cursor}
    (enough : cursor.rest.length ≤ count)
    (moreThanEnough : cursor.rest.length ≤ more) :
    extendAtMost step count start cursor = extendAtMost step more start cursor := by
  induction count generalizing more start cursor with
  | zero =>
    have isEmpty := List.eq_nil_of_length_eq_zero (Nat.le_zero.mp enough)
    rw [advances.extendAtMost_of_end isEmpty, advances.extendAtMost_of_end isEmpty]
  | succ count inductionHypothesis =>
    cases more with
    | zero =>
      have isEmpty := List.eq_nil_of_length_eq_zero (Nat.le_zero.mp moreThanEnough)
      rw [advances.extendAtMost_of_end isEmpty, advances.extendAtMost_of_end isEmpty]
    | succ more =>
      rw [extendAtMost, extendAtMost]
      refine bind_congr_of_ok fun found after stepped => ?_
      cases found with
      | none => rfl
      | some longer =>
        have shorter := advances.shorter start cursor longer after stepped
        exact inductionHypothesis (by omega) (by omega)

/-- Extending a result takes as many rounds as one likes, if they are enough. -/
theorem Advances.extend_eq
    {step : α -> Parse (Option α)}
    (advances : Advances step)
    {count : Nat}
    {start : α}
    {cursor : Cursor}
    (enough : cursor.rest.length ≤ count) :
    extend step start cursor = extendAtMost step (count + 1) start cursor := by
  rw [extend, extendAtMost]
  refine bind_congr_of_ok fun found after stepped => ?_
  cases found with
  | none => rfl
  | some longer =>
    have shorter := advances.shorter start cursor longer after stepped
    exact advances.extendAtMost_eq (Nat.le_refl _) (by omega)

/-- Extending a result begins with a step. -/
theorem Advances.extend_of_step
    {step : α -> Parse (Option α)}
    (advances : Advances step)
    {start longer : α}
    {cursor middle : Cursor}
    (stepped : step start cursor = .ok (some longer) middle) :
    extend step start cursor = extend step longer middle := by
  have shorter := advances.shorter start cursor longer middle stepped
  rw [advances.extend_eq (Nat.le_refl cursor.rest.length), extendAtMost, bind_of_ok stepped,
    advances.extend_eq (Nat.le_refl middle.rest.length)]
  exact advances.extendAtMost_eq (by omega) (by omega)

/-- Both runs take the same steps, as many as there are. -/
theorem tracks_extendAtMost
    {step : α -> Parse (Option α)}
    (steps : ∀ start own, Tracks excerpt closed Option.isSome (related start own)
      (Option.Rel related) (step start) (step own))
    (count : Nat)
    (start own : α) :
    Tracks excerpt closed never (related start own) related
      (extendAtMost step count start) (extendAtMost step count own) := by
  induction count generalizing start own with
  | zero => exact tracks_pure id
  | succ count inductionHypothesis =>
    refine (steps start own).keeping ?_
    intro found ownFound
    cases found <;> cases ownFound
    · exact tracks_pure And.left
    · have unchanged : Tracks excerpt closed never (related start start) related (pure start)
          (pure start) := tracks_pure id
      exact unchanged.vacuous fun isValid => nomatch isValid.2
    · exact (inductionHypothesis _ own).vacuous fun isValid => nomatch isValid.2
    · refine (inductionHypothesis _ _).given fun isValid => ?_
      cases isValid.2 with
      | some holds => exact holds

/-- Extending a result by steps that are in step. -/
theorem tracks_extend
    {step : α -> Parse (Option α)}
    (steps : ∀ start own, Tracks excerpt closed Option.isSome (related start own)
      (Option.Rel related) (step start) (step own))
    (idle : ∀ start cursor, cursor.rest = [] -> step start cursor = .ok none cursor)
    (start own : α) :
    Tracks excerpt closed never (related start own) related (extend step start)
      (extend step own) := by
  have advances : Advances step :=
    ⟨fun start cursor longer after ended =>
      (steps start start).shorter cursor (some longer) after ended rfl, idle⟩
  have rounds : ∀ count, Tracks excerpt closed never (related start own) related
      (extendAtMost step count start) (extendAtMost step count own) :=
    fun count => tracks_extendAtMost steps count start own
  have ownRounds : ∀ {cursor ownCursor : Cursor}, excerpt.Cut cursor ownCursor ->
      extend step own ownCursor = extendAtMost step (cursor.rest.length + 1) own ownCursor := by
    intro cursor ownCursor cut
    refine advances.extend_eq ?_
    rw [cut.rest, List.length_append]
    exact Nat.le_add_right _ _
  constructor
  case onward =>
    intro cursor
    rw [advances.extend_eq (Nat.le_refl _)]
    exact (rounds _).onward cursor
  case shorter =>
    intro cursor result after ended spent
    exact nomatch spent
  case succeeds =>
    intro isValid cursor ownCursor result after left cut ended split sees
    rw [advances.extend_eq (Nat.le_refl _)] at ended
    rw [ownRounds cut]
    exact (rounds _).succeeds isValid cursor ownCursor result after left cut ended split sees
  case fails =>
    intro isValid cursor ownCursor error after left cut ended split sees
    rw [advances.extend_eq (Nat.le_refl _)] at ended
    rw [ownRounds cut]
    exact (rounds _).fails isValid cursor ownCursor error after left cut ended split sees

/-! ## Recovery -/

/-- Recovering from an error skips tokens, and leaves the others as they are. -/
theorem synchronize_suffix (tokens : List Token) : synchronize tokens <:+ tokens := by
  induction tokens with
  | nil => exact List.suffix_refl _
  | cons skipped rest inductionHypothesis =>
    rw [synchronize]
    split
    · exact List.suffix_cons _ _
    · split
      · exact List.suffix_cons _ _
      · exact inductionHypothesis.trans (List.suffix_cons _ _)

/-- The token at which reading failed is skipped. -/
theorem synchronize_shorter (skipped : Token) (rest : List Token) :
    (synchronize (skipped :: rest)).length < (skipped :: rest).length := by
  rw [synchronize, List.length_cons]
  split
  · exact Nat.lt_succ_self _
  · split
    · exact Nat.lt_succ_self _
    · exact Nat.lt_succ_of_le (synchronize_suffix rest).length_le

/-- What is skipped within an excerpt is skipped in it alone. -/
theorem synchronize_excerpt
    {tokens left : List Token}
    (sees : excerpt.Sees tokens)
    (skipped : synchronize (tokens ++ excerpt.following) = left ++ excerpt.following) :
    synchronize tokens = left := by
  rcases sees with more | nothing
  · induction tokens with
    | nil => exact absurd rfl more
    | cons token rest inductionHypothesis =>
      rw [List.cons_append, synchronize] at skipped
      rw [synchronize]
      split at skipped
      · rename_i isSemicolon
        rw [if_pos isSemicolon]
        exact List.append_cancel_right skipped
      · rename_i noSemicolon
        rw [if_neg noSemicolon]
        cases rest with
        | nil =>
          have short := congrArg List.length skipped
          rw [List.nil_append, List.length_append] at short
          refine (List.eq_nil_of_length_eq_zero ?_).symm
          split at short
          · omega
          · have notLonger := (synchronize_suffix excerpt.following).length_le
            omega
        | cons second others =>
          split at skipped
          · rename_i begins
            exact (if_pos begins).trans (List.append_cancel_right skipped)
          · rename_i beginsNot
            exact (if_neg beginsNot).trans (inductionHypothesis skipped (List.cons_ne_nil _ _))
  · rw [nothing, List.append_nil, List.append_nil] at skipped
    exact skipped

/-- Skipping that ends within an excerpt starts there too. -/
theorem sees_of_synchronize
    {tokens left : List Token}
    (skipped : synchronize tokens = left ++ excerpt.following) :
    ∃ within, tokens = within ++ excerpt.following ∧ excerpt.Sees within := by
  obtain ⟨used, isTokens⟩ := synchronize_suffix tokens
  rw [skipped, ← List.append_assoc] at isTokens
  refine ⟨used ++ left, isTokens.symm, ?_⟩
  cases tokens with
  | nil => exact .inr (List.append_eq_nil_iff.mp isTokens).2
  | cons token rest =>
    refine .inl fun isEmpty => ?_
    have shorter := synchronize_shorter token rest
    rw [skipped, ← isTokens, isEmpty, List.nil_append, List.length_append] at shorter
    omega

/-- A statement is read, or skipped, within an excerpt as in the whole. -/
theorem tracks_recovering
    {rule : Parse Stmt}
    {change : Stmt -> Stmt -> Prop}
    (tracks : Tracks excerpt true always valid change rule rule) :
    Tracks excerpt true never valid (Option.Rel change) (recovering rule) (recovering rule) where
  onward cursor := by
    have moved := tracks.onward cursor
    rw [recovering]
    cases ended : rule cursor with
    | ok statement after =>
      rw [ended] at moved
      exact moved
    | error error after =>
      rw [ended] at moved
      exact ⟨(synchronize_suffix _).trans moved.rest, moved.endToken⟩
  shorter cursor result after ended spent := nomatch spent
  succeeds isValid cursor own result after left cut ended split sees := by
    rw [recovering] at ended ⊢
    cases ruleEnded : rule cursor with
    | ok statement middle =>
      rw [ruleEnded] at ended
      cases ended
      obtain ⟨ownStatement, ownAfter, ownEnded, holds, cutAfter⟩ :=
        tracks.succeeds isValid cursor own statement after left cut ruleEnded split (.inl rfl)
      rw [ownEnded]
      exact ⟨some ownStatement, ownAfter, rfl, .some holds, cutAfter⟩
    | error error middle =>
      rw [ruleEnded] at ended
      cases ended
      -- The tokens that are skipped are part of the excerpt, and the skipping stops where it did.
      obtain ⟨within, splitMiddle, seesMiddle⟩ := sees_of_synchronize split
      obtain ⟨ownMiddle, ownEnded, cutMiddle⟩ :=
        tracks.fails isValid cursor own error middle within cut ruleEnded splitMiddle seesMiddle
      rw [ownEnded]
      have isWithin := cutMiddle.left_eq splitMiddle
      have skipped : synchronize ownMiddle.rest = left := by
        rw [← isWithin]
        refine synchronize_excerpt seesMiddle ?_
        rw [← splitMiddle]
        exact split
      refine ⟨none, _, rfl, .none, split.trans (by rw [skipped]), cutMiddle.wholeEnd,
        cutMiddle.ownEnd, cutMiddle.nextId, (cutMiddle.noteError error).errors⟩
  fails isValid cursor own error after left cut ended split sees := by
    rw [recovering] at ended
    split at ended <;> cases ended

/-- A statement is read, or at least one token is skipped. -/
theorem recovering_shorter
    {rule : Parse Stmt}
    {change : Stmt -> Stmt -> Prop}
    {cursor after : Cursor}
    {result : Option Stmt}
    (tracks : Tracks excerpt true always valid change rule rule)
    (more : cursor.rest ≠ [])
    (ended : recovering rule cursor = .ok result after) :
    after.rest.length < cursor.rest.length := by
  rw [recovering] at ended
  cases ruleEnded : rule cursor with
  | ok statement middle =>
    rw [ruleEnded] at ended
    cases ended
    exact tracks.shorter cursor statement after ruleEnded rfl
  | error error middle =>
    rw [ruleEnded] at ended
    cases ended
    have moved := (tracks.onward cursor).rest.length_le
    rw [ruleEnded] at moved
    change middle.rest.length ≤ cursor.rest.length at moved
    change (synchronize middle.rest).length < cursor.rest.length
    cases isRest : middle.rest with
    | nil => exact List.length_pos_iff.mpr more
    | cons token rest =>
      rw [isRest] at moved
      exact Nat.lt_of_lt_of_le (synchronize_shorter token rest) moved

/-- Where no statement is read an error is noted, and tokens are skipped. -/
theorem recovering_none
    {rule : Parse Stmt}
    {change : Stmt -> Stmt -> Prop}
    {cursor after : Cursor}
    (tracks : Tracks excerpt true always valid change rule rule)
    (ended : recovering rule cursor = .ok none after) :
    after.errors.toList ≠ [] ∧
      ∃ failed, failed <:+ cursor.rest ∧ after.rest = synchronize failed := by
  rw [recovering] at ended
  have moved := (tracks.onward cursor).rest
  split at ended
  · cases ended
  · rename_i error middle ruleEnded
    cases ended
    rw [ruleEnded] at moved
    refine ⟨fun isEmpty => ?_, middle.rest, moved, rfl⟩
    rw [Array.toList_push] at isEmpty
    exact List.cons_ne_nil _ _ (List.append_eq_nil_iff.mp isEmpty).2

end Rules

end Parse
end TreeWalk
