import TreeWalk.Proofs.Grammar.Respelling
import TreeWalk.Proofs.Scan.Outlook

/-!
# Renaming in a source text

Some identifiers of a source text may be replaced by another one.  The pieces of
the text are then those of before with these identifiers replaced, because every
identifier begins with a character that looks the same to the pieces in front of
it.  So tokens that are spelled anew are those of a text that is spelled anew.
-/

namespace TreeWalk
namespace Piece

/-- Whether a text can be written as an identifier. -/
def isIdentifier (name : String) : Bool :=
  match name.toList with
  | [] => false
  | first :: rest =>
    beginsWord first && rest.all continuesWord && (Keyword.ofText? name).isNone

/-- The piece that is an identifier. -/
def ofName (name : String) : Piece :=
  ⟨name.toList, .token .identifier⟩

/-- A piece is the same as before, or it is an identifier in place of another
one. -/
def Renamed (old new : String) (before after : Piece) : Prop :=
  after = before ∨ (before = ofName old ∧ after = ofName new)

/-- The outlook of a text that begins with a word. -/
theorem outlook_of_beginsWord
    {first : Char}
    (begins : beginsWord first = true)
    (rest : List Char) :
    outlook (first :: rest) = ⟨true, false, false, false, false, false, false⟩ := by
  have notPoint := ne_of_beginsWord begins (show beginsWord '.' = false from rfl)
  have notEqual := ne_of_beginsWord begins (show beginsWord '=' = false from rfl)
  have notSlash := ne_of_beginsWord begins (show beginsWord '/' = false from rfl)
  have notStar := ne_of_beginsWord begins (show beginsWord '*' = false from rfl)
  have notLineFeed := ne_of_beginsWord begins (show beginsWord '\n' = false from rfl)
  simp [outlook, beginsFraction, continuesWord_of_beginsWord begins,
    not_isDigit_of_beginsWord begins, notPoint, notEqual, notSlash, notStar, notLineFeed]

/-- An identifier is taken as a word. -/
theorem next_identifier
    {first : Char}
    {rest : List Char}
    (isIdentifier : (next first rest).1.content = .token .identifier) :
    beginsWord first = true ∧ next first rest = takeWord first rest := by
  by_cases isBlank : isBlank first = true
  · rw [next_of_blank isBlank] at isIdentifier
    cases isIdentifier
  by_cases begins : beginsWord first = true
  · exact ⟨begins, next_of_word isBlank begins rest⟩
  · exact absurd rfl (next_noWord begins rest _ isIdentifier).1

/-- The characters of a text that can be written as an identifier. -/
theorem toList_of_isIdentifier {name : String} (valid : isIdentifier name = true) :
    ∃ first rest, name.toList = first :: rest ∧ beginsWord first = true ∧
      (∀ c ∈ rest, continuesWord c = true) ∧ Keyword.ofText? name = none := by
  unfold isIdentifier at valid
  split at valid
  · cases valid
  · rename_i first rest found
    rw [Bool.and_eq_true, Bool.and_eq_true, List.all_eq_true, Option.isNone_iff_eq_none] at valid
    exact ⟨first, rest, found, valid.1.1, valid.1.2, valid.2⟩

/-- An identifier that is a piece of a text. -/
theorem first_of_identifier
    {first : Char}
    {rest : List Char}
    {name : String}
    (isName : (next first rest).1 = ofName name) :
    beginsWord first = true ∧ (outlook (next first rest).2).continuesWord = false := by
  have isIdentifier : (next first rest).1.content = .token .identifier := by
    rw [isName]
    rfl
  obtain ⟨begins, isWord⟩ := next_identifier isIdentifier
  refine ⟨begins, ?_⟩
  rw [isWord]
  exact any_head?_dropWhile continuesWord rest

section Texts

variable {old new : String} {text : List Char} {pieces : List Piece}

/-- But for a point, what is seen of a text is its first character. -/
theorem outlook_of_ne_point
    {first : Char}
    (notPoint : first ≠ '.')
    (rest others : List Char) :
    outlook (first :: rest) = outlook (first :: others) := by
  simp [outlook, beginsFraction, notPoint]

/-- A point is seen with what is seen behind it. -/
theorem outlook_point
    {rest others : List Char}
    (sees : outlook rest = outlook others) :
    outlook ('.' :: rest) = outlook ('.' :: others) := by
  have fraction : ∀ text : List Char,
      beginsFraction ('.' :: text) = text.head?.any Char.isDigit := by
    intro text
    cases text with
    | nil => rfl
    | cons first rest => rfl
  have digit : rest.head?.any Char.isDigit = others.head?.any Char.isDigit :=
    congrArg Outlook.isDigit sees
  rw [outlook, outlook, fraction, fraction, digit]
  rfl

theorem next_point (rest : List Char) :
    next '.' rest = (⟨['.'], .token (.symbol .dot)⟩, rest) := by
  rw [next_of_symbol (by decide) (by decide) (by decide) (by decide) (by simp) (by simp) rfl,
    takeSymbol_single]
  · rfl
  · intro longer others isLonger
    cases isLonger

/-- Other identifiers in a text do not change its outlook. -/
theorem outlook_of_renamed
    (valid : isIdentifier new = true)
    (renamed : List.Forall₂ (Renamed old new) (cut text) pieces) :
    outlook (pieces.flatMap Piece.text) = outlook text := by
  induction length : text.length using Nat.strongRecOn generalizing text pieces with
  | ind length inductionHypothesis =>
    cases text with
    | nil =>
      rw [cut_nil] at renamed
      cases renamed
      rfl
    | cons first rest =>
      rw [cut_cons] at renamed
      cases renamed with
      | @cons _ piece _ others here there =>
        have further := inductionHypothesis _ (length ▸ length_next_lt first rest) there rfl
        have split := (next_splits first rest).2
        rcases here with rfl | ⟨isOld, rfl⟩
        · rw [List.flatMap_cons]
          by_cases isPoint : first = '.'
          · subst isPoint
            rw [next_point] at further ⊢
            exact outlook_point further
          · cases isText : (next first rest).1.text with
            | nil => exact absurd isText (next_splits first rest).1
            | cons begins tail =>
              rw [isText, List.cons_append, List.cons.injEq] at split
              rw [List.cons_append, split.1]
              exact outlook_of_ne_point isPoint _ _
        · obtain ⟨begins, -⟩ := first_of_identifier isOld
          obtain ⟨letter, letters, isNew, newBegins, -, -⟩ := toList_of_isIdentifier valid
          rw [List.flatMap_cons, ofName, isNew, List.cons_append,
            outlook_of_beginsWord newBegins, outlook_of_beginsWord begins]

/-- The pieces of a text with other identifiers are those of before, with these
identifiers. -/
theorem cut_of_renamed
    (valid : isIdentifier new = true)
    (whole : ∀ piece ∈ cut text, ∀ fault, piece.content ≠ .fault fault)
    (renamed : List.Forall₂ (Renamed old new) (cut text) pieces) :
    cut (pieces.flatMap Piece.text) = pieces := by
  induction length : text.length using Nat.strongRecOn generalizing text pieces with
  | ind length inductionHypothesis =>
    cases text with
    | nil =>
      rw [cut_nil] at renamed
      cases renamed
      rw [List.flatMap_nil, cut_nil]
    | cons first rest =>
      rw [cut_cons] at renamed whole
      rw [List.forall_mem_cons] at whole
      cases renamed with
      | @cons _ piece _ others here there =>
        have further :=
          inductionHypothesis _ (length ▸ length_next_lt first rest) whole.2 there rfl
        have sees := outlook_of_renamed valid there
        rcases here with rfl | ⟨isOld, rfl⟩
        · obtain ⟨tail, isText, taken⟩ := steady_next whole.1 _ sees
          rw [List.flatMap_cons, isText, List.cons_append, cut_cons, taken, further]
        · obtain ⟨-, ends⟩ := first_of_identifier isOld
          obtain ⟨letter, letters, isNew, begins, continues, notKeyword⟩ :=
            toList_of_isIdentifier valid
          have stops : (others.flatMap Piece.text).head?.any continuesWord = false :=
            (congrArg Outlook.continuesWord sees).trans ends
          have kind : wordKind (letter :: letters) = .identifier := by
            rw [wordKind, ← isNew, String.ofList_toList, notKeyword]
          have taken : next letter (letters ++ others.flatMap Piece.text) =
              (ofName new, others.flatMap Piece.text) := by
            rw [next_of_word (not_isBlank_of_beginsWord begins) begins, takeWord,
              List.takeWhile_append_of_pos continues, List.dropWhile_append_of_pos continues,
              takeWhile_of_stops stops, dropWhile_of_stops stops, List.append_nil, kind, ofName,
              isNew]
          rw [List.flatMap_cons, ofName, isNew, List.cons_append, cut_cons, taken, further, ofName,
            isNew]

/-- Other identifiers are no faults. -/
theorem noFault_of_renamed
    {before after : List Piece}
    (whole : ∀ piece ∈ before, ∀ fault, piece.content ≠ .fault fault)
    (renamed : List.Forall₂ (Renamed old new) before after) :
    ∀ piece ∈ after, ∀ fault, piece.content ≠ .fault fault := by
  induction renamed with
  | nil => exact whole
  | cons here there inductionHypothesis =>
    rw [List.forall_mem_cons] at whole ⊢
    refine ⟨?_, inductionHypothesis whole.2⟩
    rcases here with rfl | ⟨-, rfl⟩
    · exact whole.1
    · intro fault isFault
      cases isFault

end Texts

end Piece

namespace Scan

variable {spelling : Spelling}

/-- A token that is spelled anew, where the new name does not occur and lines
stay. -/
theorem eq_of_respelled
    {before after : Token}
    (still : ∀ line, spelling.line line = line)
    (fresh : before.lexeme ≠ spelling.new)
    (respelled : Token.Respelled spelling before after) :
    after = before ∨
      (before = .ofName spelling.old before.line ∧ after = .ofName spelling.new before.line) := by
  obtain ⟨chosen, rfl, isName⟩ := respelled
  obtain ⟨kind, lexeme, line⟩ := before
  rw [Token.respell, still]
  cases chosen with
  | false => exact .inl rfl
  | true =>
    obtain rfl := isName rfl
    by_cases isOld : lexeme = spelling.old
    · refine .inr ⟨by rw [isOld]; rfl, ?_⟩
      rw [isOld, NamePair.name, if_pos rfl, NamePair.exchange, if_pos rfl]
      rfl
    · refine .inl ?_
      rw [NamePair.name, if_pos rfl, NamePair.exchange_of_ne isOld fresh]

/-- The token of a piece that ends on a line, if it is one. -/
def pieceToken? (piece : Piece) (line : Nat) : Option Token :=
  (piece.item? line).bind Item.token?

/-- The tokens of pieces begin with that of the first, on the line behind the line feeds
it passes. -/
theorem tokensFrom_cons (line : Nat) (first : Piece) (rest : List Piece) :
    (itemsFrom line (first :: rest)).filterMap Item.token? =
      (pieceToken? first (line + first.linesPassed)).toList ++
        (itemsFrom (line + first.linesPassed) rest).filterMap Item.token? := by
  rw [itemsFrom, List.filterMap_append, pieceToken?]
  cases first.item? (line + first.linesPassed) with
  | none => rfl
  | some item => cases item <;> rfl

/-- The piece of an identifier is known by its token. -/
theorem pieceToken?_eq_ofName
    {piece : Piece}
    {name : String}
    {line other : Nat}
    (isName : pieceToken? piece line = some (.ofName name other)) :
    piece = .ofName name ∧ other = line := by
  obtain ⟨text, content⟩ := piece
  cases content with
  | token kind =>
    injection isName with isName
    injection isName with isKind isText isLine
    refine ⟨?_, isLine.symm⟩
    rw [Piece.ofName, ← isText, String.toList_ofList, isKind]
  | blank => cases isName
  | comment => cases isName
  | fault fault => cases isName

/-- A name's piece is the name's token. -/
theorem pieceToken?_ofName (name : String) (line : Nat) :
    pieceToken? (.ofName name) line = some (.ofName name line) := by
  simp [pieceToken?, Piece.item?, Piece.ofName, Item.token?, Token.ofName]

/-- Tokens that are spelled anew are those of pieces with other identifiers. -/
theorem exists_renamed
    {pieces : List Piece}
    {line : Nat}
    {tokens : List Token}
    (still : ∀ line, spelling.line line = line)
    (fresh : ∀ token ∈ (itemsFrom line pieces).filterMap Item.token?,
      token.lexeme ≠ spelling.new)
    (respelled : List.Forall₂ (Token.Respelled spelling)
      ((itemsFrom line pieces).filterMap Item.token?) tokens) :
    ∃ renamed, List.Forall₂ (Piece.Renamed spelling.old spelling.new) pieces renamed ∧
      (itemsFrom line renamed).filterMap Item.token? = tokens := by
  induction pieces generalizing line tokens with
  | nil =>
    rw [itemsFrom, List.filterMap_nil] at respelled
    cases respelled
    exact ⟨[], .nil, rfl⟩
  | cons first rest inductionHypothesis =>
    rw [tokensFrom_cons] at respelled fresh
    cases isToken : pieceToken? first (line + first.linesPassed) with
    | none =>
      rw [isToken, Option.toList_none, List.nil_append] at respelled fresh
      obtain ⟨renamed, areRenamed, found⟩ := inductionHypothesis fresh respelled
      refine ⟨first :: renamed, .cons (.inl rfl) areRenamed, ?_⟩
      rw [tokensFrom_cons, isToken, found, Option.toList_none, List.nil_append]
    | some token =>
      rw [isToken, Option.toList_some, List.singleton_append] at respelled fresh
      rw [List.forall_mem_cons] at fresh
      cases respelled with
      | @cons _ after _ others here there =>
        obtain ⟨renamed, areRenamed, found⟩ := inductionHypothesis fresh.2 there
        rcases eq_of_respelled still fresh.1 here with rfl | ⟨isOld, isNew⟩
        · refine ⟨first :: renamed, .cons (.inl rfl) areRenamed, ?_⟩
          rw [tokensFrom_cons, isToken, found, Option.toList_some, List.singleton_append]
        · rw [isOld] at isToken
          obtain ⟨isName, isLine⟩ := pieceToken?_eq_ofName isToken
          have lines : (Piece.ofName spelling.new).linesPassed =
              (Piece.ofName spelling.old).linesPassed := rfl
          refine ⟨.ofName spelling.new :: renamed, .cons (.inr ⟨isName, rfl⟩) areRenamed, ?_⟩
          rw [tokensFrom_cons, lines, ← isName, pieceToken?_ofName, found, isNew, isLine,
            Option.toList_some, List.singleton_append]

/-- Tokens that are spelled anew, without moving lines, are those of a text in
which some identifiers are replaced. -/
theorem exists_source
    {source : String}
    {tokens : List Token}
    (still : ∀ line, spelling.line line = line)
    (valid : Piece.isIdentifier spelling.new = true)
    (clean : (ofSource source).errors = [])
    (fresh : ∀ token ∈ (ofSource source).tokens, token.lexeme ≠ spelling.new)
    (respelled : List.Forall₂ (Token.Respelled spelling) (ofSource source).tokens tokens) :
    ∃ renamed,
      List.Forall₂ (Piece.Renamed spelling.old spelling.new) (pieces source) (pieces renamed) ∧
        (ofSource renamed).tokens = tokens ∧ (ofSource renamed).errors = [] := by
  rw [tokens_eq_filterMap, items_ofSource] at respelled fresh
  have whole := (errors_eq_nil_iff source).mp clean
  obtain ⟨renamed, areRenamed, found⟩ := exists_renamed still fresh respelled
  have isCut := Piece.cut_of_renamed valid whole areRenamed
  have text : (String.ofList (renamed.flatMap Piece.text)).toList =
      renamed.flatMap Piece.text := String.toList_ofList
  refine ⟨String.ofList (renamed.flatMap Piece.text), ?_, ?_, ?_⟩
  · change List.Forall₂ _ (Piece.cut source.toList)
      (Piece.cut (String.ofList (renamed.flatMap Piece.text)).toList)
    rw [text, isCut]
    exact areRenamed
  · rw [tokens_eq_filterMap, items_ofSource, text, isCut]
    exact found
  · rw [errors_eq_nil_iff, text, isCut]
    exact Piece.noFault_of_renamed whole areRenamed

end Scan
end TreeWalk
