import TreeWalk.Proofs.Scan.MaximalMunch

/-!
# Line numbers

Line feeds are met in four places: among the blanks, in strings, and in block
comments that are closed or not.  A line comment stops before its line feed.  So
counting them there counts every line feed of the text once, and an item is on the
line that this count has come to at its end.
-/

namespace TreeWalk
namespace Lexical

/-- Digits have no line feed. -/
theorem count_lineFeed_of_digits
    {digits : List Char}
    (areDigits : ∀ c ∈ digits, IsDigit c) :
    digits.count '\n' = 0 := by
  refine List.count_eq_zero.mpr fun member => ?_
  have isDigit := (isDigit_iff '\n').mpr (areDigits _ member)
  cases isDigit

/-- Only a string has line feeds in it, among the tokens. -/
theorem Lexeme.linesPassed_eq
    {text : List Char}
    {kind : Token.Kind}
    (lexeme : Lexeme text kind) :
    Piece.linesPassed ⟨text, .token kind⟩ = text.count '\n' := by
  cases lexeme with
  | symbol symbol => cases symbol <;> rfl
  | number nonempty digits => exact (count_lineFeed_of_digits digits).symm
  | fraction nonempty digits someFraction moreDigits =>
    rw [List.count_append, List.count_cons_of_ne (by decide), count_lineFeed_of_digits digits,
      count_lineFeed_of_digits moreDigits]
    rfl
  | string noQuote => simp [Piece.linesPassed]
  | keyword keyword => cases keyword <;> decide
  | @identifier first rest letter lettersOrDigits notReserved =>
    have begins := (beginsWord_iff first).mpr letter
    have continues : ∀ c ∈ rest, Piece.continuesWord c = true :=
      fun c member => (continuesWord_iff c).mpr (lettersOrDigits c member)
    refine (List.count_eq_zero.mpr fun member => ?_).symm
    rcases List.mem_cons.mp member with rfl | inRest
    · cases begins
    · cases continues '\n' inRest

/-- The line feeds of every piece are counted, each of them once. -/
theorem Tokenized.linesPassed_eq
    {text : List Char}
    {pieces : List Piece}
    (tokenized : Tokenized text pieces) :
    ∀ piece ∈ pieces, piece.linesPassed = piece.text.count '\n' := by
  induction tokenized with
  | done => simp
  | token lexeme longest noComment others inductionHypothesis =>
    exact List.forall_mem_cons.mpr ⟨lexeme.linesPassed_eq, inductionHypothesis⟩
  | @blank c rest pieces isBlank others inductionHypothesis =>
    refine List.forall_mem_cons.mpr ⟨?_, inductionHypothesis⟩
    simp only [blanks, List.mem_cons, List.not_mem_nil, or_false] at isBlank
    rcases isBlank with rfl | rfl | rfl | rfl <;> rfl
  | lineComment oneLine ends others inductionHypothesis =>
    refine List.forall_mem_cons.mpr ⟨?_, inductionHypothesis⟩
    simp [Piece.linesPassed, List.count_eq_zero.mpr oneLine]
  | @blockComment body rest pieces firstMark others inductionHypothesis =>
    refine List.forall_mem_cons.mpr ⟨?_, inductionHypothesis⟩
    simp [Piece.linesPassed, closingMark]
  | @unexpected c rest pieces notBlank noLexeme others inductionHypothesis =>
    refine List.forall_mem_cons.mpr ⟨?_, inductionHypothesis⟩
    have notLineFeed : c ≠ '\n' := by
      rintro rfl
      exact notBlank (by decide)
    simp [Piece.linesPassed, notLineFeed]
  | unclosedString unclosed => simp [Piece.linesPassed]
  | unclosedComment unclosed => simp [Piece.linesPassed]

end Lexical

namespace Scan

/-- The line of an item. -/
def Item.line : Item -> Nat
  | .token found => found.line
  | .fault line _ => line

/-- A piece that becomes an item yields it, on the line it was given. -/
theorem yields_of_item?
    {piece : Piece}
    {line : Nat}
    {item : Item}
    (isItem : piece.item? line = some item) :
    piece.Yields item ∧ item.line = line := by
  obtain ⟨text, content⟩ := piece
  cases content with
  | token kind =>
    cases isItem
    exact ⟨⟨rfl, rfl⟩, rfl⟩
  | fault fault =>
    cases isItem
    exact ⟨rfl, rfl⟩
  | blank => cases isItem
  | comment => cases isItem

/-- If the line feeds of every piece are counted, those of their text are. -/
theorem linesPassed_eq_count
    {pieces : List Piece}
    (counted : ∀ piece ∈ pieces, piece.linesPassed = piece.text.count '\n') :
    linesPassed pieces = (pieces.flatMap Piece.text).count '\n' := by
  induction pieces with
  | nil => rfl
  | cons first rest inductionHypothesis =>
    rw [List.forall_mem_cons] at counted
    rw [linesPassed_cons, List.flatMap_cons, List.count_append, counted.1,
      inductionHypothesis counted.2]

/-- Every item is that of a piece, and on the line to which the pieces up to this
one go. -/
theorem exists_piece_of_item
    {line : Nat}
    {pieces : List Piece}
    {before after : List Item}
    {item : Item}
    (split : itemsFrom line pieces = before ++ item :: after) :
    ∃ earlier piece later, pieces = earlier ++ piece :: later ∧
      itemsFrom line earlier = before ∧ piece.Yields item ∧
      item.line = line + linesPassed (earlier ++ [piece]) := by
  induction pieces generalizing line before with
  | nil =>
    have impossible := (List.append_eq_nil_iff.mp split.symm).2
    cases impossible
  | cons first rest inductionHypothesis =>
    rw [itemsFrom] at split
    -- The item is that of the first piece, or the first piece comes before it.
    have later : ∀ {others}, itemsFrom (line + first.linesPassed) rest =
        others ++ item :: after ->
        (first.item? (line + first.linesPassed)).toList ++ others = before ->
        ∃ earlier piece later, first :: rest = earlier ++ piece :: later ∧
          itemsFrom line earlier = before ∧ piece.Yields item ∧
          item.line = line + linesPassed (earlier ++ [piece]) := by
      intro others splitRest isBefore
      obtain ⟨earlier, piece, later, isRest, areItems, yields, isLine⟩ :=
        inductionHypothesis splitRest
      refine ⟨first :: earlier, piece, later, by rw [isRest, List.cons_append], ?_, yields, ?_⟩
      · rw [itemsFrom, areItems, isBefore]
      · rw [isLine, List.cons_append, linesPassed_cons, Nat.add_assoc]
    cases isItem : first.item? (line + first.linesPassed) with
    | none =>
      rw [isItem] at split later
      exact later split rfl
    | some found =>
      rw [isItem] at split later
      cases before with
      | nil =>
        rw [Option.toList_some, List.singleton_append, List.nil_append, List.cons.injEq] at split
        obtain ⟨rfl, -⟩ := split
        obtain ⟨yields, isLine⟩ := yields_of_item? isItem
        refine ⟨[], first, rest, rfl, rfl, yields, ?_⟩
        rw [isLine, List.nil_append, linesPassed_cons]
        rfl
      | cons head others =>
        rw [Option.toList_some, List.singleton_append, List.cons_append, List.cons.injEq] at split
        exact later split.2 (congrArg (· :: others) split.1)

/-- Items come in the order of their lines, between those where their pieces begin
and end. -/
theorem itemsFrom_ordered (line : Nat) (pieces : List Piece) :
    ((itemsFrom line pieces).map Item.line).Pairwise (· ≤ ·) ∧
      ∀ item ∈ itemsFrom line pieces,
        line ≤ item.line ∧ item.line ≤ line + linesPassed pieces := by
  induction pieces generalizing line with
  | nil => simp [itemsFrom]
  | cons first rest inductionHypothesis =>
    obtain ⟨ordered, between⟩ := inductionHypothesis (line + first.linesPassed)
    have betweenRest : ∀ item ∈ itemsFrom (line + first.linesPassed) rest,
        line ≤ item.line ∧ item.line ≤ line + (first.linesPassed + linesPassed rest) := by
      intro item member
      have bounds := between item member
      omega
    rw [itemsFrom, linesPassed_cons]
    cases isItem : first.item? (line + first.linesPassed) with
    | none => exact ⟨ordered, betweenRest⟩
    | some found =>
      have isLine := (yields_of_item? isItem).2
      rw [Option.toList_some, List.singleton_append, List.map_cons, List.pairwise_cons,
        List.forall_mem_cons]
      refine ⟨⟨fun other member => ?_, ordered⟩, by omega, betweenRest⟩
      obtain ⟨item, isMember, rfl⟩ := List.mem_map.mp member
      rw [isLine]
      exact (between item isMember).1

/-- The end token's line is one more than the line feeds of the source. -/
theorem line_endToken (source : String) :
    (ofSource source).endToken.line = 1 + source.toList.count '\n' := by
  have isLine : (ofSource source).line = 1 + linesPassed (Piece.cut source.toList) :=
    (foldl_add (pieces source) {}).2
  have whole : (Piece.cut source.toList).flatMap Piece.text = source.toList :=
    flatMap_pieces source
  rw [linesPassed_eq_count (Lexical.tokenized_cut source.toList).linesPassed_eq, whole]
    at isLine
  exact isLine

end Scan

/-- Line numbers are exact.  The source text up to the end of the piece of an item
has one line feed less than the number of its line, and the whole source text one
less than the line of the end of the input.  So lines never go down.  The line feeds
of the text are those that are counted when its pieces are read. -/
theorem scan_lines_are_exact (source : String) :
    (∀ (before : List Scan.Item) (item : Scan.Item) (after : List Scan.Item),
      (Scan.ofSource source).items.toList = before ++ item :: after ->
      ∃ (earlier : List Piece) (piece : Piece) (later : List Piece),
        pieces source = earlier ++ piece :: later ∧
        (earlier.filter Piece.isItem).length = before.length ∧ piece.Yields item ∧
        source.toList =
          (earlier.flatMap Piece.text ++ piece.text) ++ later.flatMap Piece.text ∧
        item.line = 1 + (earlier.flatMap Piece.text ++ piece.text).count '\n') ∧
      (Scan.ofSource source).endToken.line = 1 + source.toList.count '\n' ∧
      ((Scan.ofSource source).allItems.map Scan.Item.line).Pairwise (· ≤ ·) ∧
      ∀ piece ∈ pieces source, piece.linesPassed = piece.text.count '\n' := by
  refine ⟨fun before item after split => ?_, Scan.line_endToken source, ?_,
    (Lexical.tokenized_cut source.toList).linesPassed_eq⟩
  · rw [Scan.items_ofSource] at split
    obtain ⟨earlier, piece, later, arePieces, areItems, yields, isLine⟩ :=
      Scan.exists_piece_of_item split
    have prior := (Scan.items_yielded 1 earlier).length_eq
    rw [areItems] at prior
    refine ⟨earlier, piece, later, arePieces, prior, yields, ?_, ?_⟩
    · rw [← flatMap_pieces source]
      change (Piece.cut source.toList).flatMap Piece.text = _
      rw [arePieces, List.flatMap_append, List.flatMap_cons, List.append_assoc]
    · have counted := (Lexical.tokenized_cut source.toList).linesPassed_eq
      rw [arePieces, List.append_cons] at counted
      have upToHere := (List.forall_mem_append.mp counted).1
      rw [isLine, Scan.linesPassed_eq_count upToHere, List.flatMap_append, List.flatMap_singleton]
  · obtain ⟨ordered, between⟩ := Scan.itemsFrom_ordered 1 (Piece.cut source.toList)
    have isEnd : (Scan.ofSource source).endToken.line =
        1 + Scan.linesPassed (Piece.cut source.toList) :=
      (Scan.foldl_add (pieces source) {}).2
    rw [Scan.allItems, Scan.items_ofSource, List.map_append, List.pairwise_append]
    refine ⟨ordered, List.pairwise_singleton _ _, fun line member other isLast => ?_⟩
    obtain ⟨item, isMember, rfl⟩ := List.mem_map.mp member
    obtain rfl := List.mem_singleton.mp isLast
    exact Nat.le_trans (between item isMember).2 (Nat.le_of_eq isEnd.symm)

end TreeWalk
