import TreeWalk.Proofs.Evaluation.Matching
import TreeWalk.Proofs.Evaluation.PairedRuns

/-!
# Evaluation does not depend on spare scopes

Two runs go on in lockstep when one of them has spare scopes that the other does without.
Code whose references mean the same in both runs belongs to the same code with other
numbers, and scopes belong together when they are paired.
-/

namespace TreeWalk

/-- How code is paired with the same code under other numbers, which runs without the
spare scopes. -/
@[reducible] def Setting.pairing (setting : Setting) : Pairing where
  Position := Gap
  World := ScopePairs
  globals := setting.globals
  before := setting.before
  after := setting.after
  lines line other := other = line
  value gap value other :=
    ∃ number, other = value.renumber number ∧ value.Fits setting number gap
  step gap step other := ∃ number, other = step.renumber number ∧ step.Fits setting number gap
  function gap declaration other :=
    ∃ number, other = declaration.renumber number ∧ declaration.Fits setting number gap
  reads gap reference other :=
    ∃ number, other = reference.renumber number ∧ setting.Files number gap reference.id
  inherits gap keyword other :=
    ∃ number, other = keyword.renumber number ∧ setting.Files number gap keyword.id ∧
      setting.FilesInside gap keyword.id
  declares gap := gap ≠ .beyond 0
  naming _ := .same
  inside outer inner := inner = outer.enter
  frame := Gap.enter
  extended pairs later := pairs ⊆ later
  scopes pairs heap other := heap.ScopesMatch setting pairs other
  paired pairs place otherPlace naming := (place, otherPlace) ∈ pairs ∧ naming = .same
  aligned := Heap.Aligned setting

section Shapes

variable {setting : Setting} {number : Nat -> Nat} {gap : Gap}

/-- A token is paired with itself. -/
theorem Token.paired_self (token : Token) : token.Paired setting.pairing token :=
  ⟨rfl, rfl, rfl⟩

/-- Expressions that fit are paired with their renumberings one by one. -/
theorem Expr.ListFits.paired
    {values : List Expr}
    (fits : Expr.ListFits setting number gap values) :
    List.Forall₂ (setting.pairing.value gap) values (Expr.listRenumber number values) := by
  induction values with
  | nil => exact .nil
  | cons first rest inductionHypothesis =>
    rw [Expr.ListFits] at fits
    exact .cons ⟨number, rfl, fits.1⟩ (inductionHypothesis fits.2)

/-- An optional expression that fits is paired with its renumbering. -/
theorem Expr.OptionFits.paired
    {value : Option Expr}
    (fits : Expr.OptionFits setting number gap value) :
    Option.Rel (setting.pairing.value gap) value (Expr.optionRenumber number value) := by
  cases value with
  | none => exact .none
  | some value => exact .some ⟨number, rfl, fits⟩

/-- Statements that fit are paired with their renumberings one by one. -/
theorem Stmt.ListFits.paired
    {steps : List Stmt}
    (fits : Stmt.ListFits setting number gap steps) :
    List.Forall₂ (setting.pairing.step gap) steps (Stmt.listRenumber number steps) := by
  induction steps with
  | nil => exact .nil
  | cons first rest inductionHypothesis =>
    rw [Stmt.ListFits] at fits
    exact .cons ⟨number, rfl, fits.1⟩ (inductionHypothesis fits.2)

/-- Functions that fit are paired with their renumberings one by one. -/
theorem FunctionDecl.ListFits.paired
    {functions : List FunctionDecl}
    (fits : FunctionDecl.ListFits setting number gap functions) :
    List.Forall₂ (setting.pairing.function gap) functions
      (FunctionDecl.listRenumber number functions) := by
  induction functions with
  | nil => exact .nil
  | cons first rest inductionHypothesis =>
    rw [FunctionDecl.ListFits] at fits
    exact .cons ⟨number, rfl, fits.1⟩ (inductionHypothesis fits.2)

/-- An expression that fits has the form of its renumbering. -/
theorem Expr.Fits.shape
    {value : Expr}
    (fits : value.Fits setting number gap) :
    value.Shape setting.pairing gap (value.renumber number) := by
  cases value with
  | literal value => exact .literal value
  | grouping inner =>
    rw [Expr.Fits] at fits
    exact .grouping ⟨number, rfl, fits⟩
  | unary operator right =>
    rw [Expr.Fits] at fits
    exact .unary operator.paired_self ⟨number, rfl, fits⟩
  | binary left operator right =>
    rw [Expr.Fits] at fits
    exact .binary ⟨number, rfl, fits.1⟩ operator.paired_self ⟨number, rfl, fits.2⟩
  | logical left operator right =>
    rw [Expr.Fits] at fits
    exact .logical ⟨number, rfl, fits.1⟩ operator.paired_self ⟨number, rfl, fits.2⟩
  | read target =>
    rw [Expr.Fits] at fits
    exact .read ⟨number, rfl, fits⟩
  | assign target value =>
    rw [Expr.Fits] at fits
    exact .assign ⟨number, rfl, fits.2⟩ ⟨number, rfl, fits.1⟩
  | call callee paren arguments =>
    rw [Expr.Fits] at fits
    exact .call ⟨number, rfl, fits.1⟩ paren.paired_self fits.2.paired
  | property object name =>
    rw [Expr.Fits] at fits
    exact .property ⟨number, rfl, fits⟩ name.paired_self
  | setProperty object name value =>
    rw [Expr.Fits] at fits
    exact .setProperty ⟨number, rfl, fits.1⟩ name.paired_self ⟨number, rfl, fits.2⟩
  | self keyword =>
    rw [Expr.Fits] at fits
    exact .self ⟨number, rfl, fits⟩
  | inherited keyword method =>
    rw [Expr.Fits] at fits
    exact .inherited ⟨number, rfl, fits⟩ method.paired_self

/-- A statement that fits has the form of its renumbering. -/
theorem Stmt.Fits.shape
    {step : Stmt}
    (fits : step.Fits setting number gap) :
    step.Shape setting.pairing gap (step.renumber number) := by
  cases step with
  | expression value =>
    rw [Stmt.Fits] at fits
    exact .expression ⟨number, rfl, fits⟩
  | print value =>
    rw [Stmt.Fits] at fits
    exact .print ⟨number, rfl, fits⟩
  | declare name initializer =>
    rw [Stmt.Fits] at fits
    exact .declare fits.1 rfl fits.2.paired
  | block body =>
    rw [Stmt.Fits] at fits
    exact .block rfl fits.paired
  | conditional condition thenBranch elseBranch =>
    rw [Stmt.Fits] at fits
    refine .conditional ⟨number, rfl, fits.1⟩ ⟨number, rfl, fits.2.1⟩ ?_
    cases elseBranch with
    | none => exact .none
    | some branch =>
      have branchFits := fits.2.2
      rw [Stmt.OptionFits] at branchFits
      exact .some ⟨number, rfl, branchFits⟩
  | loop condition body =>
    rw [Stmt.Fits] at fits
    exact .loop ⟨number, rfl, fits.1⟩ ⟨number, rfl, fits.2⟩
  | function declaration =>
    rw [Stmt.Fits] at fits
    exact .function fits.1 rfl ⟨number, rfl, fits.2⟩
  | returns keyword value =>
    rw [Stmt.Fits] at fits
    exact .returns keyword keyword fits.paired
  | classDecl name superclass functions =>
    rw [Stmt.Fits] at fits
    obtain ⟨inner, superclassFits, functionsFit⟩ := fits
    cases superclass with
    | none => exact .classDecl inner rfl rfl .none functionsFit.paired
    | some reference =>
      exact .classDecl inner rfl rfl (.some ⟨number, rfl, superclassFits⟩) functionsFit.paired

/-- A function that fits has the form of its renumbering. -/
theorem FunctionDecl.Fits.shape
    {declaration : FunctionDecl}
    (fits : declaration.Fits setting number gap) :
    declaration.Shape setting.pairing gap (declaration.renumber number) := by
  obtain ⟨name, parameters, body⟩ := declaration
  rw [FunctionDecl.Fits] at fits
  exact ⟨rfl, gap.enter, rfl, rfl, fits.paired⟩

/-- Where a reference is looked up that means the same in both runs. -/
theorem Setting.Files.cases
    {id : Nat}
    (files : setting.Files number gap id) :
    (setting.before[id]? = none ∧ setting.after[number id]? = none) ∨
      ∃ distance, setting.before[id]? = some distance ∧ gap ≠ .beyond distance ∧
        setting.after[number id]? = some (gap.shift distance) := by
  unfold Setting.Files at files
  cases found : setting.before[id]? with
  | none =>
    rw [found] at files
    exact .inl ⟨rfl, files⟩
  | some distance =>
    rw [found] at files
    exact .inr ⟨distance, rfl, files⟩

end Shapes

/-- A run goes on in lockstep with one that does without its spare scopes. -/
@[reducible] def Setting.lockstep (setting : Setting) : Lockstep where
  toPairing := setting.pairing
  value_shape := by
    rintro gap value _ ⟨number, rfl, fits⟩
    exact fits.shape
  step_shape := by
    rintro gap step _ ⟨number, rfl, fits⟩
    exact fits.shape
  function_shape := by
    rintro gap declaration _ ⟨number, rfl, fits⟩
    exact fits.shape
  reads_line := by
    rintro gap reference _ ⟨number, rfl, -⟩
    rfl
  inherits_line := by
    rintro gap keyword _ ⟨number, rfl, -⟩
    rfl
  inside_frame _ := rfl
  naming_frame _ := rfl
  declares_inside := by
    rintro outer _ rfl
    exact outer.enter_ne
  extended_refl := List.Subset.refl
  extended_trans := List.Subset.trans
  aligned_grow := Heap.Aligned.grow
  innermost same aligned inner := ⟨same.innermost aligned inner, rfl⟩
  outermost same := ⟨⟨same.globals, rfl⟩, same.outermost, same.otherOutermost⟩
  bindings := by
    rintro pairs heap other place otherPlace _ same ⟨paired, rfl⟩
    refine ⟨(same.made _ paired).1, ?_⟩
    rw [same.bindings _ paired]
    exact (Bindings.rename_id _).symm
  reads_paired := by
    rintro pairs heap other place otherPlace gap reference _ same aligned ⟨number, rfl, files⟩
    rcases files.cases with ⟨absent, otherAbsent⟩ | ⟨distance, found, elsewhere, otherFound⟩
    · exact .inl ⟨absent, otherAbsent, rfl⟩
    · exact .inr ⟨distance, gap.shift distance, .same, found, otherFound,
        ⟨same.ancestor aligned elsewhere, rfl⟩, rfl⟩
  inherits_paired := by
    rintro pairs heap other place otherPlace gap keyword _ same aligned ⟨number, rfl, files, inside⟩
    rcases files.cases with ⟨absent, otherAbsent⟩ | ⟨distance, found, elsewhere, otherFound⟩
    · exact .inl ⟨absent, otherAbsent⟩
    · have notBefore := inside distance found
      have inner := same.ancestor aligned notBefore
      rw [Gap.shift_pred elsewhere notBefore] at inner
      exact .inr ⟨distance, gap.shift distance, .same, .same, found, otherFound,
        ⟨same.ancestor aligned elsewhere, rfl⟩, inner, rfl⟩
  scopes_of_eq := Heap.ScopesMatch.of_scopes_eq
  scopes_define := by
    rintro pairs heap other place otherPlace _ same ⟨paired, rfl⟩ name value
    exact same.define paired name value
  scopes_newScope := by
    rintro pairs heap other place otherPlace outer _ same aligned rfl values
    have sameNames : values.rename Naming.same.spell = values := Bindings.rename_id values
    rw [sameNames]
    exact ⟨Heap.newPair heap other pairs, Heap.subset_newPair heap other pairs,
      same.newScope _ _ values, Heap.aligned_newScope aligned values⟩

end TreeWalk
