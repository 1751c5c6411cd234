import TreeWalk.Proofs.Grammar.Form
import TreeWalk.Scan

/-!
# The tokens of a source text

`Piece.cut` cuts a text into pieces one after the other, and `Scan.itemsFrom`
gives them their lines, both as recursions without an accumulator.  The tokens of
a scan are spelled as their kinds say: reserved words as such, and identifiers not
like reserved words.
-/

namespace TreeWalk

namespace Piece

/-- The pieces of a text, in order. -/
def cut (text : List Char) : List Piece :=
  (piecesFrom #[] text).toList

/-- The scanner's loop finds the pieces that the text is cut into. -/
theorem toList_piecesFrom (found : Array Piece) (text : List Char) :
    (piecesFrom found text).toList = found.toList ++ cut text := by
  have split : ∀ (length : Nat) (text : List Char), text.length ≤ length ->
      ∀ found, (piecesFrom found text).toList = found.toList ++ cut text := by
    intro length
    induction length with
    | zero =>
      intro text short found
      rw [List.length_eq_zero_iff.mp (Nat.le_zero.mp short), cut, piecesFrom, piecesFrom]
      simp
    | succ length inductionHypothesis =>
      intro text short found
      cases text with
      | nil =>
        rw [cut, piecesFrom, piecesFrom]
        simp
      | cons first rest =>
        have shorter := length_next_lt first rest
        have within : (next first rest).2.length ≤ length := by omega
        rw [cut, piecesFrom, piecesFrom, inductionHypothesis _ within,
          inductionHypothesis _ within]
        simp
  exact split text.length text (Nat.le_refl _) found

@[simp] theorem cut_nil : cut [] = [] := by
  rw [cut, piecesFrom]

/-- A text is cut piece by piece. -/
theorem cut_cons (first : Char) (rest : List Char) :
    cut (first :: rest) = (next first rest).1 :: cut (next first rest).2 := by
  rw [cut, piecesFrom, toList_piecesFrom]
  simp

/-- A piece that is a token is spelled as its kind says. -/
def WellSpelled (piece : Piece) : Prop :=
  ∀ kind line, piece.content = .token kind ->
    Token.WellSpelled Token.IsName ⟨kind, String.ofList piece.text, line⟩

/-- A word is a keyword when it is spelled as one, and a name otherwise. -/
theorem wordKind_wellSpelled (text : List Char) (line : Nat) :
    Token.WellSpelled Token.IsName ⟨wordKind text, String.ofList text, line⟩ := by
  cases found : Keyword.ofText? (String.ofList text) with
  | none =>
    rw [wordKind, found]
    exact found
  | some keyword =>
    rw [wordKind, found]
    have spelled := List.find?_some found
    exact (eq_of_beq spelled).symm

/-- A piece that is neither an identifier nor a reserved word. -/
def NoWord (piece : Piece) : Prop :=
  ∀ kind, piece.content = .token kind -> kind ≠ .identifier ∧ ∀ keyword, kind ≠ .keyword keyword

/-- A piece that is no word is well spelled. -/
theorem NoWord.wellSpelled {piece : Piece} (noWord : piece.NoWord) : piece.WellSpelled := by
  intro kind line isToken
  obtain ⟨notIdentifier, notKeyword⟩ := noWord kind isToken
  cases kind with
  | identifier => exact absurd rfl notIdentifier
  | keyword keyword => exact absurd rfl (notKeyword keyword)
  | _ => trivial

/-- A number is no word. -/
theorem takeNumber_noWord (first : Char) (rest : List Char) :
    (takeNumber first rest).1.NoWord := by
  unfold NoWord takeNumber
  split
  · split <;> simp
  · simp

/-- A string is no word. -/
theorem takeString_noWord (rest : List Char) : (takeString rest).1.NoWord := by
  unfold NoWord takeString
  split <;> simp

/-- A symbol is no word. -/
theorem takeSymbol_noWord (symbol : Symbol) (first : Char) (rest : List Char) :
    (takeSymbol symbol first rest).1.NoWord := by
  unfold NoWord takeSymbol
  split <;> simp [single]

/-- Only a character that begins a word begins one. -/
theorem next_noWord
    {first : Char}
    (notWord : ¬ beginsWord first = true)
    (rest : List Char) :
    (next first rest).1.NoWord := by
  unfold next
  split
  · simp [NoWord, single]
  split
  · exact takeNumber_noWord first rest
  split
  · exact takeString_noWord rest
  split
  · simp [NoWord, takeLineComment]
  · unfold NoWord takeBlockComment
    split <;> simp
  · split
    · exact takeSymbol_noWord _ first rest
    · simp [NoWord, single]

/-- The next piece is well spelled, whatever it is. -/
theorem next_wellSpelled (first : Char) (rest : List Char) :
    (next first rest).1.WellSpelled := by
  by_cases begins : beginsWord first = true
  · unfold next
    split
    · simp [WellSpelled, single]
    · intro kind line isToken
      injection isToken with isKind
      subst isKind
      exact wordKind_wellSpelled _ line
  · exact (next_noWord begins rest).wellSpelled

/-- Every piece of a text is well spelled. -/
theorem cut_wellSpelled (text : List Char) : ∀ piece ∈ cut text, piece.WellSpelled := by
  have spelled : ∀ (length : Nat) (text : List Char), text.length ≤ length ->
      ∀ piece ∈ cut text, piece.WellSpelled := by
    intro length
    induction length with
    | zero =>
      intro text short
      rw [List.length_eq_zero_iff.mp (Nat.le_zero.mp short), cut_nil]
      simp
    | succ length inductionHypothesis =>
      intro text short
      cases text with
      | nil => simp
      | cons first rest =>
        have shorter := length_next_lt first rest
        rw [cut_cons, List.forall_mem_cons]
        exact ⟨next_wellSpelled first rest, inductionHypothesis _ (by omega)⟩
  exact spelled text.length text (Nat.le_refl _)

end Piece

namespace Scan

/-- The items of some pieces, the first of which begins on the given line. -/
def itemsFrom (line : Nat) : List Piece -> List Item
  | [] => []
  | first :: rest =>
    (first.item? (line + first.linesPassed)).toList ++ itemsFrom (line + first.linesPassed) rest

/-- How many lines reading some pieces goes on. -/
def linesPassed : List Piece -> Nat
  | [] => 0
  | first :: rest => first.linesPassed + linesPassed rest

@[simp]
theorem linesPassed_nil : linesPassed [] = 0 :=
  rfl

@[simp]
theorem linesPassed_cons (first : Piece) (rest : List Piece) :
    linesPassed (first :: rest) = first.linesPassed + linesPassed rest :=
  rfl

/-- The token of an item, if it is one. -/
def Item.token? : Item -> Option Token
  | .token found => some found
  | .fault _ _ => none

/-- A scan of some pieces lists their items, and goes on as many lines as they do. -/
theorem foldl_add (pieces : List Piece) (scan : Scan) :
    (pieces.foldl add scan).items.toList = scan.items.toList ++ itemsFrom scan.line pieces ∧
      (pieces.foldl add scan).line = scan.line + linesPassed pieces := by
  induction pieces generalizing scan with
  | nil => simp [itemsFrom]
  | cons first rest inductionHypothesis =>
    have line : (scan.add first).line = scan.line + first.linesPassed := by
      unfold add
      dsimp only
      split <;> rfl
    have items : (scan.add first).items.toList =
        scan.items.toList ++ (first.item? (scan.line + first.linesPassed)).toList := by
      unfold add
      dsimp only
      split
      · rename_i item found
        rw [found, Array.toList_push]
        rfl
      · rename_i found
        rw [found]
        simp
    obtain ⟨restItems, restLine⟩ := inductionHypothesis (scan.add first)
    rw [List.foldl_cons, restItems, restLine, line, items, itemsFrom, List.append_assoc,
      linesPassed_cons, Nat.add_assoc]
    exact ⟨rfl, rfl⟩

/-- The scanner's items are those of the pieces, from line 1. -/
theorem items_ofSource (source : String) :
    (ofSource source).items.toList = itemsFrom 1 (Piece.cut source.toList) := by
  rw [ofSource, (foldl_add (pieces source) {}).1]
  rfl

/-- The tokens are the items that are no errors. -/
theorem tokens_eq_filterMap (scan : Scan) :
    scan.tokens = scan.items.toList.filterMap Item.token? := by
  rw [tokens]
  congr 1

/-- The tokens of well-spelled pieces are well spelled. -/
theorem itemsFrom_wellSpelled
    {pieces : List Piece}
    (spelled : ∀ piece ∈ pieces, piece.WellSpelled)
    (line : Nat) :
    ∀ token ∈ (itemsFrom line pieces).filterMap Item.token?, token.WellSpelled Token.IsName := by
  induction pieces generalizing line with
  | nil => simp [itemsFrom]
  | cons first rest inductionHypothesis =>
    rw [List.forall_mem_cons] at spelled
    rw [itemsFrom, List.filterMap_append, List.forall_mem_append]
    refine ⟨?_, inductionHypothesis spelled.2 _⟩
    intro token member
    unfold Piece.item? at member
    split at member
    · rename_i kind isToken
      simp only [Option.toList_some, List.filterMap_cons, Item.token?, List.filterMap_nil,
        List.mem_singleton] at member
      rw [member]
      exact spelled.1 kind _ isToken
    all_goals simp [Item.token?] at member

/-- The tokens of a scan are spelled as their kinds say. -/
theorem tokens_wellSpelled (source : String) :
    ∀ token ∈ (ofSource source).tokens, token.WellSpelled Token.IsName := by
  rw [tokens_eq_filterMap, items_ofSource]
  exact itemsFrom_wellSpelled (Piece.cut_wellSpelled source.toList) 1

/-- A scan has no faults if no piece is one. -/
theorem errors_eq_nil_iff (source : String) :
    (ofSource source).errors = [] ↔
      ∀ piece ∈ Piece.cut source.toList, ∀ fault, piece.content ≠ .fault fault := by
  rw [errors, items_ofSource]
  generalize 1 = line
  induction Piece.cut source.toList generalizing line with
  | nil => simp [itemsFrom]
  | cons first rest inductionHypothesis =>
    rw [itemsFrom, List.filterMap_append, List.append_eq_nil_iff, List.forall_mem_cons,
      inductionHypothesis]
    refine and_congr_left fun _ => ?_
    unfold Piece.item?
    split <;> simp_all

/-- The items of more pieces start on the line that the first ones have led to. -/
theorem itemsFrom_append (line : Nat) (pieces others : List Piece) :
    itemsFrom line (pieces ++ others) =
      itemsFrom line pieces ++ itemsFrom (line + linesPassed pieces) others := by
  induction pieces generalizing line with
  | nil => simp [itemsFrom]
  | cons first rest inductionHypothesis =>
    rw [List.cons_append, itemsFrom, itemsFrom, inductionHypothesis, List.append_assoc,
      linesPassed_cons, Nat.add_assoc]

/-- The tokens of some pieces that begin on a later line are on later lines. -/
theorem itemsFrom_add (line count : Nat) (pieces : List Piece) :
    (itemsFrom (line + count) pieces).filterMap Item.token? =
      ((itemsFrom line pieces).filterMap Item.token?).map fun token =>
        ⟨token.kind, token.lexeme, token.line + count⟩ := by
  induction pieces generalizing line with
  | nil => rfl
  | cons first rest inductionHypothesis =>
    have later : line + count + first.linesPassed = line + first.linesPassed + count := by omega
    rw [itemsFrom, itemsFrom, later, List.filterMap_append, List.filterMap_append,
      List.map_append, inductionHypothesis]
    congr 1
    unfold Piece.item?
    split <;> rfl

end Scan
end TreeWalk
