import TreeWalk.Proofs.Evaluation.Likeness
import TreeWalk.Proofs.Evaluation.PairedRuns

/-!
# Evaluation does not depend on the spelling

A program and the program spelled anew, on machines that are alike, go on in lockstep.
Code belongs to the same code spelled anew, in agreement with the marks of the scopes
around it, and every scope belongs to the one at the same place.
-/

namespace TreeWalk

/-- How the names of a scope are exchanged, by its mark. -/
def Likeness.naming (likeness : Likeness) (mark : Bool) : Naming where
  spell := likeness.name mark
  injective := likeness.toNamePair.name_injective mark
  keepsSelf := NamePair.name_of_exchange_eq likeness.keepsSelf mark
  keepsSuperclass := NamePair.name_of_exchange_eq likeness.keepsSuperclass mark

/-- A reference and the same one, under its other number and the spelling of the
scope that it means. -/
structure Reference.Alike
    (likeness : Likeness)
    (chosen : List Bool)
    (reference other : Reference) : Prop where
  id : other.id = likeness.number reference.id
  same : likeness.after[likeness.number reference.id]? = likeness.before[reference.id]?
  atDistance : ∀ distance, likeness.before[reference.id]? = some distance ->
    other.name.lexeme = likeness.name (chosen.getD distance false) reference.name.lexeme
  unfiled : likeness.before[reference.id]? = none ->
    other.name.lexeme = reference.name.lexeme
  line : ∃ move, likeness.lines move ∧ other.name.line = move reference.name.line

/-- How code is paired with the same code spelled anew, on heaps with the given global
scope. -/
@[reducible] def Likeness.pairing (likeness : Likeness) (globals : ScopeRef) : Pairing where
  Position := List Bool
  World := List Bool
  globals := globals
  before := likeness.before
  after := likeness.after
  lines line other := ∃ move, likeness.lines move ∧ other = move line
  value chosen value other :=
    value.WellFormed Token.IsName ∧ ∃ spelling, likeness.Admits spelling value.ids ∧
      other = value.respell spelling chosen
  step chosen step other :=
    step.WellFormed Token.IsName ∧ ∃ spelling choice,
      likeness.Admits spelling step.ids step.functions ∧
      (chosen.headD false = true -> step.keepsNames spelling = true) ∧
      other = step.respell spelling choice chosen
  function chosen declaration other :=
    declaration.WellFormed Token.IsName ∧ ∃ spelling choice,
      likeness.Admits spelling declaration.ids declaration.functions ∧
      other = declaration.respell spelling choice chosen
  reads := Reference.Alike likeness
  inherits _ keyword other :=
    ∃ spelling, likeness.Admits spelling [keyword.id] ∧ other = keyword.move spelling
  declares _ := True
  naming chosen := likeness.naming (chosen.headD false)
  inside outer inner := ∃ mark, inner = mark :: outer
  frame chosen := false :: chosen
  extended marks later := marks <+: later
  scopes := Heap.ScopesAlike likeness globals
  paired marks place otherPlace naming :=
    otherPlace = place ∧ ∃ mark, marks[place.index]? = some mark ∧ naming = likeness.naming mark
  aligned marks heap _ place otherPlace chosen :=
    otherPlace = place ∧ heap.Marked globals marks place chosen

section Shapes

variable
  {likeness : Likeness}
  {globals : ScopeRef}
  {spelling : Spelling}
  {choice : Choice}
  {chosen : List Bool}

/-- A reference whose id is admitted is like its respelling. -/
theorem Reference.alike_respell
    {reference : Reference}
    (admits : likeness.Admits spelling [reference.id])
    (chosen : List Bool) :
    reference.Alike likeness chosen (reference.respell spelling chosen) := by
  have filed := admits.filed reference.id (List.mem_singleton_self _)
  refine ⟨congrFun admits.number _, admits.same _ (List.mem_singleton_self _),
    fun distance found => ?_, fun unfiled => ?_, spelling.line, admits.line, rfl⟩
  · rw [found] at filed
    rw [Reference.respell, Token.respell, Spelling.reaches, filed, admits.pair]
  · rw [unfiled] at filed
    rw [Reference.respell, Token.respell, Spelling.reaches, filed]
    rfl

/-- A reference to a name that is not exchanged is like the reference moved to other
lines. -/
theorem Reference.alike_move
    {reference : Reference}
    (admits : likeness.Admits spelling [reference.id])
    (keeps : likeness.exchange reference.name.lexeme = reference.name.lexeme)
    (chosen : List Bool) :
    reference.Alike likeness chosen (reference.move spelling) := by
  refine ⟨congrFun admits.number _, admits.same _ (List.mem_singleton_self _),
    fun distance _ => ?_, fun _ => rfl, spelling.line, admits.line, rfl⟩
  rw [NamePair.name_of_exchange_eq keeps]
  rfl

/-- A token whose name belongs to no chosen scope is paired with its respelling. -/
theorem Token.paired_respell
    (moves : likeness.lines spelling.line)
    (token : Token) :
    token.Paired (likeness.pairing globals) (token.respell spelling false) :=
  ⟨rfl, rfl, spelling.line, moves, rfl⟩

/-- A name that is kept where it is exchanged keeps its spelling. -/
theorem Likeness.Admits.keeps
    {ids : List Nat}
    {functions : List FunctionDecl}
    {name : String}
    (admits : likeness.Admits spelling ids functions)
    (keeps : chosen.headD false = true -> (spelling.exchange name == name) = true) :
    (likeness.naming (chosen.headD false)).spell name = name := by
  cases head : chosen.headD false with
  | false => rfl
  | true =>
    have kept := eq_of_beq (keeps head)
    rw [admits.pair] at kept
    exact kept

/-- A declared name is spelled as its scope is. -/
theorem Likeness.Admits.lexeme_respell
    {ids : List Nat}
    {functions : List FunctionDecl}
    (admits : likeness.Admits spelling ids functions)
    (mark : Bool)
    (name : Token) :
    (name.respell spelling mark).lexeme = (likeness.naming mark).spell name.lexeme := by
  rw [Token.respell, admits.pair]
  rfl

/-- Expressions are paired with their respellings one by one. -/
theorem Expr.paired_listRespell
    {values : List Expr}
    (wellFormed : Expr.AllWellFormed Token.IsName values)
    (admits : likeness.Admits spelling (Expr.listIds values)) :
    List.Forall₂ ((likeness.pairing globals).value chosen) values
      (Expr.listRespell spelling chosen values) := by
  induction values with
  | nil => exact .nil
  | cons first rest inductionHypothesis =>
    rw [Expr.AllWellFormed] at wellFormed
    rw [Expr.listIds] at admits
    exact .cons ⟨wellFormed.1, spelling, admits.mono (List.subset_append_left _ _), rfl⟩
      (inductionHypothesis wellFormed.2 (admits.mono (List.subset_append_right _ _)))

/-- An optional expression is paired with its respelling. -/
theorem Expr.paired_optionRespell
    {value : Option Expr}
    (wellFormed : Expr.OptionWellFormed Token.IsName value)
    (admits : likeness.Admits spelling (Expr.optionIds value)) :
    Option.Rel ((likeness.pairing globals).value chosen) value
      (Expr.optionRespell spelling chosen value) := by
  cases value with
  | none => exact .none
  | some value => exact .some ⟨wellFormed, spelling, admits, rfl⟩

/-- Statements are paired with their respellings one by one. -/
theorem Stmt.paired_listRespell
    {steps : List Stmt}
    (wellFormed : Stmt.AllWellFormed Token.IsName steps)
    (admits : likeness.Admits spelling (Stmt.listIds steps) (Stmt.listFunctions steps))
    (keeps : chosen.headD false = true -> steps.all (·.keepsNames spelling) = true) :
    List.Forall₂ ((likeness.pairing globals).step chosen) steps
      (Stmt.listRespell spelling choice chosen steps) := by
  induction steps generalizing choice with
  | nil => exact .nil
  | cons first rest inductionHypothesis =>
    rw [Stmt.AllWellFormed] at wellFormed
    rw [Stmt.listIds, Stmt.listFunctions] at admits
    simp only [List.all_cons, Bool.and_eq_true] at keeps
    rw [Stmt.listRespell]
    exact .cons ⟨wellFormed.1, spelling, choice.left,
        admits.part (List.subset_append_left _ _) (List.subset_append_left _ _),
        fun head => (keeps head).1, rfl⟩
      (inductionHypothesis wellFormed.2
        (admits.part (List.subset_append_right _ _) (List.subset_append_right _ _))
        fun head => (keeps head).2)

/-- The statements of a block or a call are paired with their respellings in the scope that
is made for them. -/
theorem Stmt.paired_inside
    {body : List Stmt}
    (wellFormed : Stmt.AllWellFormed Token.IsName body)
    (admits : likeness.Admits spelling (Stmt.listIds body) (Stmt.listFunctions body)) :
    List.Forall₂ ((likeness.pairing globals).step (spelling.chooses choice body :: chosen)) body
      (Stmt.listRespell spelling choice (spelling.chooses choice body :: chosen) body) :=
  Stmt.paired_listRespell wellFormed admits Spelling.keepsNames_of_chooses

/-- Functions are paired with their respellings one by one. -/
theorem FunctionDecl.paired_listRespell
    {functions : List FunctionDecl}
    (wellFormed : FunctionDecl.AllWellFormed Token.IsName functions)
    (admits : likeness.Admits spelling (FunctionDecl.listIds functions)
      (FunctionDecl.listFunctions functions)) :
    List.Forall₂ ((likeness.pairing globals).function chosen) functions
      (FunctionDecl.listRespell spelling choice chosen functions) := by
  induction functions generalizing choice with
  | nil => exact .nil
  | cons first rest inductionHypothesis =>
    rw [FunctionDecl.AllWellFormed] at wellFormed
    rw [FunctionDecl.listIds, FunctionDecl.listFunctions] at admits
    rw [FunctionDecl.listRespell]
    exact .cons ⟨wellFormed.1, spelling, choice.left,
        admits.part (List.subset_append_left _ _) (List.subset_append_left _ _), rfl⟩
      (inductionHypothesis wellFormed.2
        (admits.part (List.subset_append_right _ _) (List.subset_append_right _ _)))

/-- An expression has the form of its respelling. -/
theorem Expr.shape_respell
    {value : Expr}
    (wellFormed : value.WellFormed Token.IsName)
    (admits : likeness.Admits spelling value.ids) :
    value.Shape (likeness.pairing globals) chosen (value.respell spelling chosen) := by
  have moves := admits.line
  cases value with
  | literal value => exact .literal value
  | grouping inner => exact .grouping ⟨wellFormed, spelling, admits, rfl⟩
  | unary operator right =>
    exact .unary (operator.paired_respell moves) ⟨wellFormed, spelling, admits, rfl⟩
  | binary left operator right =>
    rw [Expr.WellFormed] at wellFormed
    rw [Expr.ids] at admits
    exact .binary ⟨wellFormed.1, spelling, admits.mono (List.subset_append_left _ _), rfl⟩
      (operator.paired_respell moves)
      ⟨wellFormed.2, spelling, admits.mono (List.subset_append_right _ _), rfl⟩
  | logical left operator right =>
    rw [Expr.WellFormed] at wellFormed
    rw [Expr.ids] at admits
    exact .logical ⟨wellFormed.1, spelling, admits.mono (List.subset_append_left _ _), rfl⟩
      (operator.paired_respell moves)
      ⟨wellFormed.2, spelling, admits.mono (List.subset_append_right _ _), rfl⟩
  | read target => exact .read (Reference.alike_respell admits chosen)
  | assign target value =>
    rw [Expr.WellFormed] at wellFormed
    rw [Expr.ids] at admits
    exact .assign (Reference.alike_respell (admits.mono (List.subset_append_right _ _)) chosen)
      ⟨wellFormed.2, spelling, admits.mono (List.subset_append_left _ _), rfl⟩
  | call callee paren arguments =>
    rw [Expr.WellFormed] at wellFormed
    rw [Expr.ids] at admits
    exact .call ⟨wellFormed.1, spelling, admits.mono (List.subset_append_left _ _), rfl⟩
      (paren.paired_respell moves)
      (Expr.paired_listRespell wellFormed.2 (admits.mono (List.subset_append_right _ _)))
  | property object name =>
    exact .property ⟨wellFormed, spelling, admits, rfl⟩ (name.paired_respell moves)
  | setProperty object name value =>
    rw [Expr.WellFormed] at wellFormed
    rw [Expr.ids] at admits
    exact .setProperty ⟨wellFormed.1, spelling, admits.mono (List.subset_append_left _ _), rfl⟩
      (name.paired_respell moves)
      ⟨wellFormed.2, spelling, admits.mono (List.subset_append_right _ _), rfl⟩
  | self keyword =>
    rw [Expr.WellFormed] at wellFormed
    have keeps : likeness.exchange keyword.name.lexeme = keyword.name.lexeme := by
      rw [wellFormed]
      exact likeness.keepsSelf
    exact .self (Reference.alike_move admits keeps chosen)
  | inherited keyword method =>
    exact .inherited ⟨spelling, admits, rfl⟩ (method.paired_respell moves)

/-- A statement has the form of its respelling. -/
theorem Stmt.shape_respell
    {step : Stmt}
    (wellFormed : step.WellFormed Token.IsName)
    (admits : likeness.Admits spelling step.ids step.functions)
    (keeps : chosen.headD false = true -> step.keepsNames spelling = true) :
    step.Shape (likeness.pairing globals) chosen (step.respell spelling choice chosen) := by
  cases step with
  | expression value => exact .expression ⟨wellFormed, spelling, admits, rfl⟩
  | print value => exact .print ⟨wellFormed, spelling, admits, rfl⟩
  | declare name initializer =>
    rw [Stmt.WellFormed] at wellFormed
    exact .declare trivial (admits.lexeme_respell _ name)
      (Expr.paired_optionRespell wellFormed.2 admits)
  | block body =>
    exact .block ⟨spelling.chooses choice body, rfl⟩ (Stmt.paired_inside wellFormed admits)
  | conditional condition thenBranch elseBranch =>
    rw [Stmt.WellFormed] at wellFormed
    rw [Stmt.ids, Stmt.functions] at admits
    have kept : chosen.headD false = true ->
        thenBranch.keepsNames spelling = true ∧
          Stmt.optionKeepsNames spelling elseBranch = true := by
      intro head
      have both := keeps head
      rwa [Stmt.keepsNames, Bool.and_eq_true] at both
    have before := admits.part (List.subset_append_left _ _) (List.subset_append_left _ _)
    rw [Stmt.respell]
    refine .conditional ⟨wellFormed.1, spelling, before.mono (List.subset_append_left _ _), rfl⟩
      ⟨wellFormed.2.1.2, spelling, choice.left,
        before.part (List.subset_append_right _ _) (List.Subset.refl _),
        fun head => (kept head).1, rfl⟩ ?_
    cases elseBranch with
    | none => exact .none
    | some branch =>
      have branchFormed := wellFormed.2.2
      rw [Stmt.OptionWellFormed] at branchFormed
      exact .some ⟨branchFormed.2, spelling, choice.right,
        admits.part (List.subset_append_right _ _) (List.subset_append_right _ _),
        fun head => (kept head).2, rfl⟩
  | loop condition body =>
    rw [Stmt.WellFormed] at wellFormed
    rw [Stmt.ids, Stmt.functions] at admits
    exact .loop ⟨wellFormed.1, spelling, admits.mono (List.subset_append_left _ _), rfl⟩
      ⟨wellFormed.2.2, spelling, choice,
        admits.part (List.subset_append_right _ _) (List.Subset.refl _), keeps, rfl⟩
  | function declaration =>
    rw [Stmt.keepsNames] at keeps
    exact .function trivial (admits.keeps keeps) ⟨wellFormed, spelling, choice, admits, rfl⟩
  | returns keyword value =>
    exact .returns keyword _ (Expr.paired_optionRespell wellFormed admits)
  | classDecl name superclass functions =>
    rw [Stmt.WellFormed] at wellFormed
    rw [Stmt.keepsNames] at keeps
    rw [Stmt.ids, Stmt.functions] at admits
    have inside := admits.part (List.subset_append_right _ _) (List.Subset.refl _)
    cases superclass with
    | none =>
      exact .classDecl trivial rfl (admits.keeps keeps) .none
        (FunctionDecl.paired_listRespell wellFormed.2.2 inside)
    | some reference =>
      exact .classDecl trivial rfl (admits.keeps keeps)
        (.some (Reference.alike_respell (admits.mono (List.subset_append_left _ _)) chosen))
        (FunctionDecl.paired_listRespell wellFormed.2.2 inside)

/-- A function has the form of its respelling. -/
theorem FunctionDecl.shape_respell
    {declaration : FunctionDecl}
    (wellFormed : declaration.WellFormed Token.IsName)
    (admits : likeness.Admits spelling declaration.ids declaration.functions) :
    declaration.Shape (likeness.pairing globals) chosen
      (declaration.respell spelling choice chosen) := by
  obtain ⟨name, parameters, body⟩ := declaration
  rw [FunctionDecl.WellFormed] at wellFormed
  rw [FunctionDecl.ids, FunctionDecl.functions] at admits
  refine ⟨rfl, spelling.chooses choice body :: chosen, ⟨_, rfl⟩, ?_,
    Stmt.paired_inside wellFormed.2.2
      (admits.part (List.Subset.refl _) (List.subset_cons_self _ _))⟩
  rw [FunctionDecl.respell, List.map_map]
  exact List.map_congr_left fun parameter _ => admits.lexeme_respell _ parameter

end Shapes

/-- A run goes on in lockstep with one of the program spelled anew. -/
@[reducible] def Likeness.lockstep (likeness : Likeness) (globals : ScopeRef) : Lockstep where
  toPairing := likeness.pairing globals
  value_shape := by
    rintro chosen value _ ⟨wellFormed, spelling, admits, rfl⟩
    exact Expr.shape_respell wellFormed admits
  step_shape := by
    rintro chosen step _ ⟨wellFormed, spelling, choice, admits, keeps, rfl⟩
    exact Stmt.shape_respell wellFormed admits keeps
  function_shape := by
    rintro chosen declaration _ ⟨wellFormed, spelling, choice, admits, rfl⟩
    exact FunctionDecl.shape_respell wellFormed admits
  reads_line references := references.line
  inherits_line := by
    rintro chosen keyword _ ⟨spelling, admits, rfl⟩
    exact ⟨spelling.line, admits.line, rfl⟩
  inside_frame chosen := ⟨false, rfl⟩
  naming_frame _ := rfl
  declares_inside _ := trivial
  extended_refl := List.prefix_refl
  extended_trans := List.IsPrefix.trans
  aligned_grow aligned grows _ extended := ⟨aligned.1, aligned.2.grow grows extended⟩
  innermost alike aligned _ :=
    ⟨aligned.1, _, aligned.2.innermost alike.unmarked, rfl⟩
  outermost alike :=
    ⟨⟨rfl, false, alike.unmarked, rfl⟩, alike.outermost,
      (alike.enclosing globals).trans alike.outermost⟩
  bindings := by
    rintro marks heap other place _ _ alike ⟨rfl, mark, marked, rfl⟩
    rw [alike.scopes _ mark marked]
    exact ⟨alike.made marked, rfl⟩
  reads_paired := by
    rintro marks heap other place _ chosen reference otherReference alike ⟨rfl, marked⟩ references
    have sameDistance : likeness.after[otherReference.id]? = likeness.before[reference.id]? := by
      rw [references.id, references.same]
    cases filed : likeness.before[reference.id]? with
    | none => exact .inl ⟨rfl, sameDistance.trans filed, references.unfiled filed⟩
    | some distance =>
      exact .inr ⟨distance, distance, likeness.naming (chosen.getD distance false), rfl,
        sameDistance.trans filed,
        ⟨alike.ancestor _ distance, _,
          marked.ancestor alike.outermost alike.unmarked distance, rfl⟩,
        references.atDistance distance filed⟩
  inherits_paired := by
    rintro marks heap other place _ chosen keyword _ alike ⟨rfl, marked⟩ ⟨spelling, admits, rfl⟩
    have sameDistance : likeness.after[(keyword.move spelling).id]? =
        likeness.before[keyword.id]? := by
      rw [← admits.same _ (List.mem_singleton_self _), ← admits.number]
      rfl
    have markedAt := marked.ancestor alike.outermost alike.unmarked
    cases filed : likeness.before[keyword.id]? with
    | none => exact .inl ⟨rfl, sameDistance.trans filed⟩
    | some distance =>
      exact .inr ⟨distance, distance, _, _, rfl, sameDistance.trans filed,
        ⟨alike.ancestor _ _, _, markedAt distance, rfl⟩,
        ⟨alike.ancestor _ _, _, markedAt (distance - 1), rfl⟩⟩
  scopes_of_eq := Heap.ScopesAlike.of_scopes_eq
  scopes_define := by
    rintro marks heap other place _ _ alike ⟨rfl, mark, marked, rfl⟩ name value
    exact alike.define marked name value
  scopes_newScope := by
    rintro marks heap other place _ outer _ alike ⟨rfl, marked⟩ ⟨mark, rfl⟩ values
    refine ⟨marks ++ [mark], List.prefix_append _ _, alike.newScope _ values mark, ?_,
      Heap.marked_newScope marked (alike.made alike.unmarked) alike.marked values mark⟩
    simp [Heap.newScope, alike.size]

/-! ## Machines that are alike -/

/-- Two runs are interrupted for the same reason and, if no line is moved, at the
same line. -/
def Interruption.Alike (likeness : Likeness) (interruption other : Interruption) : Prop :=
  other.withoutLine = interruption.withoutLine ∧ (likeness.Exact -> other = interruption)

/-- Machines that are alike: apart from their heaps and their distances they are
in the same state.  The global scope is not marked. -/
structure Machine.Alike
    (likeness : Likeness)
    (marks : List Bool)
    (machine other : Machine) : Prop where
  heap : machine.heap.Alike likeness machine.globals marks other.heap
  globals : other.globals = machine.globals
  unmarked : marks[machine.globals.index]? = some false
  outermost : (machine.heap.scope machine.globals).enclosing = none
  scope : other.scope = machine.scope
  before : machine.distances = likeness.before
  after : other.distances = likeness.after
  callDepth : other.callDepth = machine.callDepth
  clock : other.clock = machine.clock
  output : other.output = machine.output

section Alike

variable
  {likeness : Likeness}
  {globals : ScopeRef}
  {marks later chosen : List Bool}
  {heap otherHeap : Heap}
  {machine other after otherAfter : Machine}

/-- Interruptions in lockstep are alike. -/
theorem Interruption.Paired.alike
    {interruption otherInterruption : Interruption}
    (interruptions : interruption.Paired (likeness.pairing globals) otherInterruption) :
    interruption.Alike likeness otherInterruption := by
  refine ⟨interruptions.1, fun exact => interruptions.2 ?_⟩
  rintro line _ ⟨move, moves, rfl⟩
  exact exact move moves line

/-- Closures are alike when their declarations belong together and they remember the same
scope. -/
theorem Closure.alike_iff
    (coming : List Bool)
    {closure otherClosure : Closure} :
    closure.Alike likeness heap globals marks coming otherClosure ↔
      closure.Paired (likeness.pairing globals) marks heap otherHeap (coming ++ ·)
        otherClosure := by
  constructor
  · rintro ⟨wellFormed, spelling, choice, chosen, admits, rfl, marked⟩
    exact ⟨chosen, trivial, ⟨rfl, marked⟩, ⟨wellFormed, spelling, choice, admits, rfl⟩, rfl⟩
  · obtain ⟨declaration, scope, isInitializer⟩ := otherClosure
    rintro ⟨chosen, -, ⟨sameScope, marked⟩, ⟨wellFormed, spelling, choice, admits, isOther⟩, same⟩
    dsimp only at sameScope isOther same
    subst sameScope isOther same
    exact ⟨wellFormed, spelling, choice, chosen, admits, rfl, marked⟩

/-- Alike heaps are paired. -/
theorem Heap.Alike.paired
    (alike : heap.Alike likeness globals marks otherHeap)
    (unmarked : marks[globals.index]? = some false)
    (outermost : (heap.scope globals).enclosing = none) :
    heap.Paired (likeness.pairing globals) marks otherHeap where
  scopes := ⟨alike.marked, alike.size, alike.scopes, unmarked, outermost⟩
  natives := alike.natives
  functionsSize := alike.functionsSize
  functions place := rel_imp (alike.functions place) fun _ _ => (Closure.alike_iff []).mp
  classesSize := alike.classesSize
  classes place := rel_imp (alike.classes place) fun _ _ found =>
    ⟨found.name, found.lineage.imp fun _ _ tables name =>
      rel_imp (tables name) fun _ _ => (Closure.alike_iff [false]).mp⟩
  instances := alike.instances

/-- Paired heaps are alike. -/
theorem Heap.Paired.alike (same : heap.Paired (likeness.pairing globals) marks otherHeap) :
    heap.Alike likeness globals marks otherHeap where
  marked := same.scopes.marked
  size := same.scopes.size
  scopes := same.scopes.scopes
  natives := same.natives
  functionsSize := same.functionsSize
  functions place := rel_imp (same.functions place) fun _ _ => (Closure.alike_iff []).mpr
  classesSize := same.classesSize
  classes place := rel_imp (same.classes place) fun _ _ found =>
    ⟨found.name, found.lineage.imp fun _ _ tables name =>
      rel_imp (tables name) fun _ _ => (Closure.alike_iff [false]).mpr⟩
  instances := same.instances

/-- Alike machines are abreast in a chain of scopes with known marks. -/
theorem Machine.Alike.abreast
    (alike : machine.Alike likeness marks other)
    (marked : machine.heap.Marked machine.globals marks machine.scope chosen) :
    Abreast (likeness.lockstep machine.globals) marks chosen machine other :=
  ⟨⟨alike.heap.paired alike.unmarked alike.outermost, ⟨rfl, alike.globals⟩,
    ⟨alike.before, alike.after⟩, alike.callDepth, alike.clock, alike.output⟩, alike.scope, marked⟩

/-- Machines that go on in lockstep, in the same scope, are alike. -/
theorem GoesOn.alike
    (goesOn : GoesOn (likeness.lockstep globals) marks machine other later after otherAfter)
    (scope : other.scope = machine.scope) :
    after.Alike likeness later otherAfter := by
  obtain ⟨isGlobals, isOther⟩ := goesOn.same.globals
  have scopes := goesOn.same.heap.scopes
  refine ⟨?_, isOther.trans isGlobals.symm, ?_, ?_,
    goesOn.otherScope.trans (scope.trans goesOn.scope.symm), goesOn.same.distances.1,
    goesOn.same.distances.2, goesOn.same.callDepth, goesOn.same.clock, goesOn.same.output⟩
  · rw [isGlobals]
    exact goesOn.same.heap.alike
  · rw [isGlobals]
    exact scopes.unmarked
  · rw [isGlobals]
    exact scopes.outermost

end Alike

end TreeWalk
