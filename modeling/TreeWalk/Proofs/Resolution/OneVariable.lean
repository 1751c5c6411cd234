import TreeWalk.Proofs.Evaluation.Faithful
import TreeWalk.Session

/-!
# One variable for each name of an expression

Expressions open no scopes, so all of an expression is resolved in the scopes of
its place.  Wherever a name is read or assigned to in it, the name means the same
variable, with one exception.  In the initializer of a local variable that its
scope does not have yet, the name of the variable means an outer one where it is
read, and the new one where it is assigned to.
-/

namespace TreeWalk

/-- A variable that is read or assigned to. -/
inductive Use where
  | read (target : Reference)
  | write (target : Reference)
deriving DecidableEq

/-- The reference to the variable. -/
def Use.target : Use -> Reference
  | read target => target
  | write target => target

mutual

/-- The variables that are read or assigned to in an expression. -/
def Expr.uses : Expr -> List Use
  | .literal _ => []
  | .grouping inner => inner.uses
  | .unary _ right => right.uses
  | .binary left _ right => left.uses ++ right.uses
  | .logical left _ right => left.uses ++ right.uses
  | .read target => [.read target]
  | .assign target value => value.uses ++ [.write target]
  | .call callee _ arguments => callee.uses ++ Expr.listUses arguments
  | .property object _ => object.uses
  | .setProperty object _ value => object.uses ++ value.uses
  | .self _ => []
  | .inherited _ _ => []

/-- The variables that are read or assigned to in expressions. -/
def Expr.listUses : List Expr -> List Use
  | [] => []
  | first :: rest => first.uses ++ Expr.listUses rest

end

/-- The variable that an expression itself reads or assigns to. -/
def Expr.use? : Expr -> Option Use
  | .read target => some (.read target)
  | .assign target _ => some (.write target)
  | _ => none

namespace Resolution

/-- Whether the innermost scope has a name that is declared there and not
defined. -/
def awaits (walk : Resolution) (name : String) : Bool :=
  match walk.scopes with
  | [] => false
  | scope :: _ => scope.get? name = some .declared

/-- How many scopes are passed over when a name is looked up. -/
def skip (walk : Resolution) : Use -> Nat
  | .read target => if walk.awaits target.name.lexeme then 1 else 0
  | .write _ => 0

theorem skip_of_scopes_eq
    {walk other : Resolution}
    (same : other.scopes = walk.scopes)
    (use : Use) :
    other.skip use = walk.skip use := by
  cases use with
  | read target => rw [skip, skip, awaits, awaits, same]
  | write target => rfl

theorem distance?_of_scopes_eq
    {walk other : Resolution}
    (same : other.scopes = walk.scopes)
    (name : String)
    (skipped : Nat) :
    other.distance? name skipped = walk.distance? name skipped := by
  rw [distance?, distance?, same]

/-- The scope in which a name is awaited is the first one that has it. -/
theorem distance?_of_awaits
    {walk : Resolution}
    {name : String}
    (awaited : walk.awaits name = true) :
    walk.distance? name 0 = some 0 := by
  rw [awaits] at awaited
  rw [distance?]
  split at awaited
  · cases awaited
  · rename_i shape
    simp [shape, List.findIdx?_cons, Bindings.contains, of_decide_eq_true awaited]

/-- A name is read past the scope where it awaits its initializer if some scope further
out has it, and reported otherwise. -/
theorem readName_eq
    (around : Surroundings)
    (target : Reference)
    (walk : Resolution) :
    walk.readName around target =
      if walk.awaits target.name.lexeme then
        if walk.boundIn walk.scopes.tail target.name.lexeme then walk.file around target 1
        else walk.report target.name .readInOwnInitializer
      else walk.file around target 0 := by
  rw [readName, awaits]
  cases walk.scopes with
  | nil => rfl
  | cons scope outer =>
    by_cases isDeclared : scope.get? target.name.lexeme = some .declared
    · simp only [isDeclared, decide_true, if_true, List.tail_cons]
      rfl
    · simp [isDeclared]

/-- For a variable that is read without error, the distance found past the skipped
scopes is filed. -/
theorem getElem?_readName
    {around : Surroundings}
    {target : Reference}
    {walk : Resolution}
    (fresh : walk.distances[target.id]? = none)
    (clean : (walk.readName around target).errors.size = 0) :
    (walk.readName around target).distances[target.id]? =
      walk.distance? target.name.lexeme (walk.skip (.read target)) := by
  rw [readName_eq] at clean ⊢
  rw [skip]
  split at clean
  · rename_i isAwaited
    rw [if_pos isAwaited, if_pos isAwaited]
    split at clean
    · rw [if_pos ‹_›]
      exact Site.getElem?_file around fresh 1
    · simp [report] at clean
  · rename_i notAwaited
    rw [if_neg notAwaited, if_neg notAwaited]
    exact Site.getElem?_file around fresh 0

end Resolution

namespace Site

open Resolution

section Reached

variable {root site : Site}

/-- At every site of a program with different numbers, nothing is filed yet for its
references, and what is filed there stays. -/
theorem Within.filed_of_distinct
    (within : Within root site)
    (distinct : root.part.ids.Nodup) :
    site.part.ids.Nodup ∧ ∀ id ∈ site.part.ids,
      site.walk.distances[id]? = root.walk.distances[id]? ∧
        root.outcome.distances[id]? = site.outcome.distances[id]? := by
  induction within with
  | refl => exact ⟨distinct, fun _ _ => ⟨rfl, rfl⟩⟩
  | step within isChild inductionHypothesis =>
    obtain ⟨siteDistinct, filed⟩ := inductionHypothesis
    obtain ⟨before, after, covers⟩ := (child_of_mem_children isChild).covers
    refine ⟨?_, fun id member => ?_⟩
    · have split := covers.ids.nodup_iff.mpr siteDistinct
      rw [List.nodup_append, List.nodup_append] at split
      exact split.2.1.1
    · obtain ⟨notBefore, notAfter, inside⟩ := covers.disjoint siteDistinct member
      rw [covers.reached.distances id notBefore, (filed id inside).2]
      exact ⟨(filed id inside).1, covers.left.distances id notAfter⟩

/-- A part reports no more than the whole. -/
theorem Within.errors_le (within : Within root site) :
    site.outcome.errors.size ≤ root.outcome.errors.size := by
  induction within with
  | refl => exact Nat.le_refl _
  | step _ isChild inductionHypothesis =>
    obtain ⟨before, after, covers⟩ := (child_of_mem_children isChild).covers
    exact Nat.le_trans covers.left.errors inductionHypothesis

end Reached

section Uses

variable {root : Site} {around : Surroundings}

mutual

/-- The walk over an expression goes to every variable in it, in the same
scopes. -/
theorem within_of_mem_uses :
    ∀ (value : Expr) {walk : Resolution} {use : Use},
      Within root ⟨around, .expression value, walk⟩ -> use ∈ value.uses ->
        ∃ inner place, Within root ⟨around, .expression inner, place⟩ ∧
          inner.use? = some use ∧ place.scopes = walk.scopes
  | .literal _, _, _, _, member => by simp [Expr.uses] at member
  | .grouping inner, _, _, within, member => by
    rw [Expr.uses] at member
    exact within_of_mem_uses inner (within.step List.mem_cons_self) member
  | .unary _ right, _, _, within, member => by
    rw [Expr.uses] at member
    exact within_of_mem_uses right (within.step List.mem_cons_self) member
  | .binary left _ right, walk, _, within, member => by
    rw [Expr.uses, List.mem_append] at member
    rcases member with inLeft | inRight
    · exact within_of_mem_uses left (within.step List.mem_cons_self) inLeft
    · rw [← (stays_expression around left walk).scopes]
      exact within_of_mem_uses right
        (within.step (List.mem_cons_of_mem _ List.mem_cons_self)) inRight
  | .logical left _ right, walk, _, within, member => by
    rw [Expr.uses, List.mem_append] at member
    rcases member with inLeft | inRight
    · exact within_of_mem_uses left (within.step List.mem_cons_self) inLeft
    · rw [← (stays_expression around left walk).scopes]
      exact within_of_mem_uses right
        (within.step (List.mem_cons_of_mem _ List.mem_cons_self)) inRight
  | .read target, walk, _, within, member => by
    rw [Expr.uses, List.mem_singleton] at member
    rw [member]
    exact ⟨.read target, walk, within, rfl, rfl⟩
  | .assign target value, walk, _, within, member => by
    rw [Expr.uses, List.mem_append, List.mem_singleton] at member
    rcases member with inValue | rfl
    · exact within_of_mem_uses value (within.step List.mem_cons_self) inValue
    · exact ⟨.assign target value, walk, within, rfl, rfl⟩
  | .call callee _ arguments, walk, _, within, member => by
    rw [Expr.uses, List.mem_append] at member
    rcases member with inCallee | inArguments
    · exact within_of_mem_uses callee (within.step List.mem_cons_self) inCallee
    · rw [← (stays_expression around callee walk).scopes]
      exact within_of_mem_listUses arguments
        (within.step (List.mem_cons_of_mem _ List.mem_cons_self)) inArguments
  | .property object _, _, _, within, member => by
    rw [Expr.uses] at member
    exact within_of_mem_uses object (within.step List.mem_cons_self) member
  -- The value is resolved before the object.
  | .setProperty object _ value, walk, _, within, member => by
    rw [Expr.uses, List.mem_append] at member
    rcases member with inObject | inValue
    · rw [← (stays_expression around value walk).scopes]
      exact within_of_mem_uses object
        (within.step (List.mem_cons_of_mem _ List.mem_cons_self)) inObject
    · exact within_of_mem_uses value (within.step List.mem_cons_self) inValue
  | .self _, _, _, _, member => by simp [Expr.uses] at member
  | .inherited _ _, _, _, _, member => by simp [Expr.uses] at member

/-- A use among arguments is the use of one expression, resolved in the same scopes. -/
theorem within_of_mem_listUses :
    ∀ (values : List Expr) {walk : Resolution} {use : Use},
      Within root ⟨around, .expressions values, walk⟩ -> use ∈ Expr.listUses values ->
        ∃ inner place, Within root ⟨around, .expression inner, place⟩ ∧
          inner.use? = some use ∧ place.scopes = walk.scopes
  | [], _, _, _, member => by simp [Expr.listUses] at member
  | first :: rest, walk, _, within, member => by
    rw [Expr.listUses, List.mem_append] at member
    rcases member with inFirst | inRest
    · exact within_of_mem_uses first (within.step List.mem_cons_self) inFirst
    · rw [← (stays_expression around first walk).scopes]
      exact within_of_mem_listUses rest
        (within.step (List.mem_cons_of_mem _ List.mem_cons_self)) inRest

end

/-- The distance of every variable in an expression is the one found from the place
of the expression. -/
theorem filed_of_mem_uses
    {value : Expr}
    {walk : Resolution}
    {use : Use}
    (within : Within root ⟨around, .expression value, walk⟩)
    (distinct : root.part.ids.Nodup)
    (fresh : root.walk.distances = ∅)
    (clean : root.outcome.errors.size = 0)
    (member : use ∈ value.uses) :
    root.outcome.distances[use.target.id]? =
      walk.distance? use.target.name.lexeme (walk.skip use) := by
  obtain ⟨inner, place, reached, isUse, scopes⟩ := within_of_mem_uses value within member
  obtain ⟨innerDistinct, filed⟩ := reached.filed_of_distinct distinct
  have innerClean := Nat.le_zero.mp (clean ▸ reached.errors_le)
  have blank : ∀ id ∈ (Part.expression inner).ids, place.distances[id]? = none := by
    intro id inside
    rw [(filed id inside).1, fresh]
    exact Std.TreeMap.getElem?_emptyc
  rw [← skip_of_scopes_eq scopes, ← distance?_of_scopes_eq scopes]
  cases inner with
  | read target =>
    have here : target.id ∈ (Part.expression (.read target)).ids := by simp [Part.ids, Expr.ids]
    rw [outcome, Resolution.expression] at innerClean
    cases isUse
    rw [Use.target, (filed _ here).2, outcome, Resolution.expression]
    exact getElem?_readName (blank _ here) innerClean
  | assign target assigned =>
    have here : target.id ∈ (Part.expression (.assign target assigned)).ids := by
      simp [Part.ids, Expr.ids]
    rw [Part.ids, Expr.ids, List.nodup_append] at innerDistinct
    have notAssigned : target.id ∉ assigned.ids := fun inside =>
      innerDistinct.2.2 _ inside _ (List.mem_singleton_self _) rfl
    cases isUse
    rw [Use.target, (filed _ here).2, outcome, Resolution.expression, getElem?_file]
    · exact distance?_of_scopes_eq (stays_expression around assigned place).scopes _ _
    · rw [(adds_expression around assigned place).distances _ notAssigned]
      exact blank _ here
  | _ => cases isUse

end Uses

end Site

/-! ## Where a name is awaited -/

namespace Resolution

/-- Every name of every scope is defined. -/
def AllSettled (walk : Resolution) : Prop :=
  ∀ scope ∈ walk.scopes, Settled scope

namespace AllSettled

variable {walk after : Resolution}

/-- Whether all scopes are settled depends on the scopes alone. -/
theorem of_scopes_eq
    (settled : walk.AllSettled)
    (same : after.scopes = walk.scopes) :
    after.AllSettled := by
  rw [AllSettled, same]
  exact settled

/-- Binding a name settles it. -/
theorem of_bindName
    {name : String}
    (settled : walk.AllSettled)
    (bound : after.scopes = bindName name walk.scopes) :
    after.AllSettled := by
  rw [AllSettled, bound]
  unfold AllSettled at settled
  cases scopes : walk.scopes with
  | nil => exact nofun
  | cons scope outer =>
    rw [scopes, List.forall_mem_cons] at settled
    exact List.forall_mem_cons.mpr ⟨settled.1.set name, settled.2⟩

/-- Entering a settled scope leaves all settled. -/
theorem of_cons
    {scope : Bindings Binding}
    (settled : walk.AllSettled)
    (scopes : after.scopes = scope :: walk.scopes)
    (isSettled : Settled scope) :
    after.AllSettled := by
  rw [AllSettled, scopes]
  exact List.forall_mem_cons.mpr ⟨isSettled, settled⟩

/-- Leaving a scope leaves the others settled. -/
theorem leave (settled : walk.AllSettled) : walk.leave.AllSettled :=
  fun scope member => settled scope (List.mem_of_mem_tail member)

/-- Declaring and defining a name at once leaves all settled. -/
theorem bind (settled : walk.AllSettled) (name : String) :
    ((walk.declare name).define name).AllSettled :=
  settled.of_bindName (scopes_bind name walk)

/-- The parameters are settled from the start. -/
theorem enterFunction (settled : walk.AllSettled) (parameters : List Token) :
    (walk.enterFunction parameters).AllSettled :=
  settled.of_cons (scopes_enterFunction parameters walk) (settled_parameterScope parameters)

/-- The scopes of a class are settled. -/
theorem enterSelf (settled : walk.AllSettled) :
    (walk.enter (Bindings.empty.set selfName .defined)).AllSettled :=
  settled.of_cons rfl (settled_empty.set selfName)

/-- The superclass is settled from the start. -/
theorem enterSubclass
    (settled : walk.AllSettled)
    (around : Surroundings)
    (name : Token)
    (superclass : Reference) :
    (walk.enterSubclass around name superclass).AllSettled :=
  settled.of_cons (scopes_enterSubclass around name superclass walk)
    (settled_empty.set superclassName)

end AllSettled

mutual

/-- After a statement everything is settled, if it was before. -/
theorem settled_statement (around : Surroundings) :
    ∀ (step : Stmt) {walk : Resolution}, walk.AllSettled ->
      (statement around step walk).AllSettled
  | .expression value, walk, settled => by
    rw [statement]
    exact settled.of_scopes_eq (stays_expression around value walk).scopes
  | .print value, walk, settled => by
    rw [statement]
    exact settled.of_scopes_eq (stays_expression around value walk).scopes
  | .declare name initializer, walk, settled => by
    rw [statement]
    exact settled.of_bindName
      (scopes_declare_define (stays_optionalExpression around initializer _).scopes)
  | .block body, walk, settled => by
    rw [statement]
    exact (settled_statements around body (settled.of_cons rfl settled_empty)).leave
  | .conditional condition thenBranch elseBranch, walk, settled => by
    rw [statement]
    exact settled_optionalStatement around elseBranch (settled_statement around thenBranch
      (settled.of_scopes_eq (stays_expression around condition walk).scopes))
  | .loop condition body, walk, settled => by
    rw [statement]
    exact settled_statement around body
      (settled.of_scopes_eq (stays_expression around condition walk).scopes)
  | .function declaration, walk, settled => by
    rw [statement]
    exact settled_function _ declaration (settled.bind _)
  | .returns keyword value, walk, settled => by
    rw [statement]
    refine AllSettled.of_scopes_eq ?_ (stays_optionalExpression around value _).scopes
    split
    · exact settled
    · exact settled
  | .classDecl name none functions, walk, settled => by
    rw [statement]
    exact (settled_methods _ functions (settled.bind _).enterSelf).leave
  | .classDecl name (some superclass) functions, walk, settled => by
    rw [statement]
    exact (settled_methods _ functions
      ((settled.bind _).enterSubclass around name superclass).enterSelf).leave.leave

/-- Between statements no name awaits its initializer. -/
theorem settled_statements (around : Surroundings) :
    ∀ (steps : List Stmt) {walk : Resolution}, walk.AllSettled ->
      (statements around steps walk).AllSettled
  | [], walk, settled => by
    rw [statements]
    exact settled
  | first :: rest, walk, settled => by
    rw [statements]
    exact settled_statements around rest (settled_statement around first settled)

/-- Behind a branch no name awaits its initializer. -/
theorem settled_optionalStatement (around : Surroundings) :
    ∀ (step : Option Stmt) {walk : Resolution}, walk.AllSettled ->
      (optionalStatement around step walk).AllSettled
  | none, walk, settled => by
    rw [optionalStatement]
    exact settled
  | some step, walk, settled => by
    rw [optionalStatement]
    exact settled_statement around step settled

/-- Behind a function no name awaits its initializer. -/
theorem settled_function (around : Surroundings) :
    ∀ (declaration : FunctionDecl) {walk : Resolution}, walk.AllSettled ->
      (function around declaration walk).AllSettled
  | ⟨_, parameters, body⟩, walk, settled => by
    rw [function]
    exact (settled_statements around body (settled.enterFunction parameters)).leave

/-- Behind methods no name awaits its initializer. -/
theorem settled_methods (around : Surroundings) :
    ∀ (declarations : List FunctionDecl) {walk : Resolution}, walk.AllSettled ->
      (methods around declarations walk).AllSettled
  | [], walk, settled => by
    rw [methods]
    exact settled
  | first :: rest, walk, settled => by
    rw [methods]
    exact settled_methods around rest (settled_function _ first settled)

end

end Resolution

namespace Site

open Resolution

/-- The site lies in the initializer of a local variable, and only that variable may
be awaited there. -/
def Initializes (root site : Site) : Prop :=
  site.part.isExpression = true ∧ ∃ (name : String) (base : Resolution), base.AllSettled ∧
    site.walk.scopes = declareName name base.scopes ∧ InInitializer root name site

/-- Everything is settled at every site but in the initializers of local
variables. -/
theorem Within.settled
    {root site : Site}
    (within : Within root site)
    (outermost : root.walk.scopes = []) :
    site.walk.AllSettled ∨ Initializes root site := by
  induction within with
  | refl => exact .inl (by simp [AllSettled, outermost])
  | @step site child within isChild inductionHypothesis =>
    rcases inductionHypothesis with settled | ⟨isExpression, name, base, settled, scopes, inside⟩
    · cases child_of_mem_children isChild with
      | @initializer around walk name value =>
        by_cases outside : walk.scopes = []
        · refine .inl (settled.of_scopes_eq ?_)
          rw [scopes_declare, outside, declareName]
        · exact .inr ⟨rfl, name.lexeme, walk, settled, scopes_declare _ _,
            around, name, value, walk, within, rfl, outside, .refl⟩
      | block => exact .inl (settled.of_cons rfl settled_empty)
      | thenBranch | loopBody =>
        exact .inl (settled.of_scopes_eq (stays_expression _ _ _).scopes)
      | @elseBranch around walk condition thenBranch =>
        have tested := settled.of_scopes_eq (stays_expression around condition walk).scopes
        exact .inl (settled_statement around thenBranch tested)
      | function => exact .inl (settled.bind _)
      | returned =>
        dsimp only
        split
        · exact .inl settled
        · exact .inl settled
      | classMethods => exact .inl (settled.bind _).enterSelf
      | superclass =>
        dsimp only [checkSuperclass]
        split
        · exact .inl (settled.bind _)
        · exact .inl (settled.bind _)
      | subclassMethods => exact .inl ((settled.bind _).enterSubclass _ _ _).enterSelf
      | laterStatements => exact .inl (settled_statement _ _ settled)
      | body => exact .inl (settled.enterFunction _)
      | laterMethods => exact .inl (settled_function _ _ settled)
      | evaluated | printed | condition | loopCondition | firstStatement | firstMethod =>
        exact .inl settled
      | _ => exact .inl (settled.of_scopes_eq (scopes_inExpressions rfl isChild).2)
    · -- Inside of an initializer nothing is declared, so the same name stays awaited.
      obtain ⟨childExpression, childScopes⟩ := scopes_inExpressions isExpression isChild
      obtain ⟨around, token, initializer, walk, declared, isName, isLocal, reached⟩ := inside
      exact .inr ⟨childExpression, name, base, settled, childScopes.trans scopes,
        around, token, initializer, walk, declared, isName, isLocal, reached.step isChild⟩

/-- A name is awaited in the initializer of the local variable with that name, and
nowhere else. -/
theorem Within.inInitializer
    {root site : Site}
    {name : String}
    (within : Within root site)
    (outermost : root.walk.scopes = [])
    (awaited : site.walk.awaits name = true) :
    InInitializer root name site := by
  rw [awaits] at awaited
  split at awaited
  · cases awaited
  · rename_i innermost outer shape
    have isDeclared := of_decide_eq_true awaited
    rcases within.settled outermost with settled | ⟨-, other, base, settled, scopes, inside⟩
    · exact absurd isDeclared (settled innermost (by simp [shape]) name)
    · have found : (declareName other base.scopes)[0]? = some innermost := by
        rw [← scopes, shape]
        rfl
      obtain ⟨original, foundBase, same | ⟨-, isName, -, -⟩⟩ := get?_declareName found name
      · exact absurd (same ▸ isDeclared) (settled original (List.mem_of_getElem? foundBase) name)
      · exact isName ▸ inside

end Site

/-- The machine is at the place of an expression: its scopes are those of the walk,
and it has the distances that were filed for the variables of the expression. -/
structure Machine.At
    (distances : Distances)
    (value : Expr)
    (walk : Resolution)
    (machine : Machine) : Prop where
  globalsMade : machine.globals.index < machine.heap.scopes.size
  outermost : (machine.heap.scope machine.globals).enclosing = none
  agrees : machine.heap.Agrees machine.globals machine.scope walk.scopes
  filed : ∀ use ∈ value.uses, machine.distances[use.target.id]? = distances[use.target.id]?

/-- Evaluation has gone on from one machine to another in the same scope, without an
assignment to the variable of a reference. -/
structure Machine.Unassigned (reference : Reference) (before after : Machine) : Prop where
  grows : Heap.Grows before.heap after.heap
  globals : after.globals = before.globals
  scope : after.scope = before.scope
  distances : after.distances = before.distances
  value : ∀ place, before.binder? reference = some place ->
    (after.heap.scope place).bindings.get? reference.name.lexeme =
      (before.heap.scope place).bindings.get? reference.name.lexeme

namespace Eval

/-- After an assignment, a reference to the same variable reads what was
assigned. -/
theorem readVariable_of_assignVariable
    {written target : Reference}
    {value : Value}
    {machine assigned later : Machine}
    {scopes : List (Bindings Binding)}
    (sameName : target.name.lexeme = written.name.lexeme)
    (alike : machine.distances[target.id]? = machine.distances[written.id]?)
    (globalsMade : machine.globals.index < machine.heap.scopes.size)
    (outermost : (machine.heap.scope machine.globals).enclosing = none)
    (agrees : machine.heap.Agrees machine.globals machine.scope scopes)
    (inside : ∀ distance, machine.distances[written.id]? = some distance ->
      distance < scopes.length)
    (assigns : assignVariable written value machine = .ok () assigned)
    (unassigned : Machine.Unassigned written assigned later) :
    readVariable target later = .ok value later := by
  rw [assignVariable_eq] at assigns
  unfold readVariable
  unfold Machine.binder? at assigns
  cases filed : machine.distances[written.id]? with
  -- The same number of links leads to the same scope, since no link is changed in between.
  | some distance =>
    rw [filed] at assigns
    cases assigns
    have bound := inside distance filed
    have made := (Heap.Chained.ancestor agrees (List.getElem?_eq_getElem bound)).2.1
    have grown := Heap.grows_define machine.heap (machine.heap.ancestor machine.scope distance)
      written.name.lexeme value
    have samePlace := Heap.Chained.ancestor_grow agrees grown bound
    have laterPlace := Heap.Chained.ancestor_grow agrees (grown.trans unassigned.grows) bound
    have kept := unassigned.value (machine.heap.ancestor machine.scope distance)
      (by rw [Machine.binder?, filed]; exact congrArg some samePlace)
    rw [Heap.bindings_define_self _ _ _ _ made, Bindings.get?_set_self] at kept
    rw [unassigned.distances, alike, filed]
    dsimp only
    rw [Heap.getAt, unassigned.scope, laterPlace, sameName, kept, Option.getD_some]
  -- Without a distance both go to the table, which has no scope around it.
  | none =>
    rw [filed] at assigns
    cases isBinder : machine.heap.binder? machine.globals written.name.lexeme with
    | none =>
      rw [isBinder] at assigns
      cases assigns
    | some binder =>
      rw [isBinder] at assigns
      cases assigns
      have isGlobal : binder = machine.globals := by
        have member := List.mem_of_find?_eq_some isBinder
        rw [Heap.chain_outermost outermost] at member
        exact List.mem_singleton.mp member
      subst isGlobal
      have grown := Heap.grows_define machine.heap machine.globals written.name.lexeme value
      have bound := Heap.contains_define_self machine.heap globalsMade written.name.lexeme
        written.name.lexeme value
      have kept := unassigned.value machine.globals (by
        rw [Machine.binder?, filed]
        dsimp only
        rw [Heap.binder?, Heap.chain_outermost
          ((grown.enclosing _ globalsMade).trans outermost)]
        simp [bound])
      rw [Heap.bindings_define_self _ _ _ _ globalsMade, Bindings.get?_set_self] at kept
      have laterOutermost : (later.heap.scope machine.globals).enclosing = none :=
        ((grown.trans unassigned.grows).enclosing _ globalsMade).trans outermost
      rw [unassigned.distances, alike, filed]
      dsimp only
      rw [unassigned.globals, Heap.get?, Heap.binder?, Heap.chain_outermost laterOutermost]
      simp [Bindings.contains, sameName, kept]

end Eval

/-! ## Reading and assigning in one expression -/

/-- All the variables in an expression with one name have the same distance, or all
have none. -/
def Expr.OneVariable (value : Expr) (name : String) (distances : Distances) : Prop :=
  ∃ distance, ∀ use ∈ value.uses, use.target.name.lexeme = name ->
    distances[use.target.id]? = distance

namespace Site

open Resolution

/-- The site of a program at the start of the walk. -/
def start (globals : List String) (program : List Stmt) : Site :=
  ⟨{}, .statements program, { globals := globals }⟩

variable {globals : List String} {program : List Stmt} {around : Surroundings} {value : Expr}
  {walk : Resolution}

/-- In an accepted program, each use is filed at the distance its name has where it
stands. -/
theorem filed_of_mem_uses_start
    {use : Use}
    (distinct : (Stmt.listIds program).Nodup)
    (accepted : (resolve globals program).errors = #[])
    (within : Within (start globals program) ⟨around, .expression value, walk⟩)
    (member : use ∈ value.uses) :
    (resolve globals program).distances[use.target.id]? =
      walk.distance? use.target.name.lexeme (walk.skip use) :=
  filed_of_mem_uses within distinct rfl (congrArg Array.size accepted) member

/-- In a program without static errors, everywhere in an expression a name means the
same variable, and after an assignment to it this variable is read with the value
that was assigned.  The exception is the initializer of a local variable that its
scope does not have yet: there, the name of the variable is looked up further out
where it is read, and means the new variable where it is assigned to. -/
theorem uses_mean_one_variable
    (distinct : (Stmt.listIds program).Nodup)
    (accepted : (resolve globals program).errors = #[])
    (within : Within (start globals program) ⟨around, .expression value, walk⟩)
    (name : String) :
    (value.OneVariable name (resolve globals program).distances ∧
      ∀ (written target : Reference) (result : Value) (machine assigned later : Machine),
        .write written ∈ value.uses -> written.name.lexeme = name ->
        .read target ∈ value.uses -> target.name.lexeme = name ->
        machine.At (resolve globals program).distances value walk ->
        Eval.assignVariable written result machine = .ok () assigned ->
        Machine.Unassigned written assigned later ->
          Eval.readVariable target later = .ok result later) ∨
    (InInitializer (start globals program) name ⟨around, .expression value, walk⟩ ∧
      ∀ use ∈ value.uses, use.target.name.lexeme = name ->
        (resolve globals program).distances[use.target.id]? =
          match use with
          | .read _ => walk.distance? name 1
          | .write _ => some 0) := by
  have filed := fun (use : Use) (member : use ∈ value.uses) =>
    filed_of_mem_uses_start distinct accepted within member
  cases awaited : walk.awaits name with
  -- Reads and assignments look the name up from the same scope.
  | false =>
    have alike : ∀ use ∈ value.uses, use.target.name.lexeme = name ->
        (resolve globals program).distances[use.target.id]? = walk.distance? name 0 := by
      intro use member isName
      rw [filed use member, isName]
      cases use with
      | read target =>
        rw [Use.target] at isName
        rw [skip, isName, awaited]
        rfl
      | write target => rfl
    refine .inl ⟨⟨walk.distance? name 0, alike⟩, ?_⟩
    intro written target result machine assigned later isWrite writtenName isRead targetName
      isAt assigns unassigned
    have writtenFiled := (isAt.filed _ isWrite).trans (alike _ isWrite writtenName)
    have targetFiled := (isAt.filed _ isRead).trans (alike _ isRead targetName)
    refine Eval.readVariable_of_assignVariable (targetName.trans writtenName.symm)
      (targetFiled.trans writtenFiled.symm) isAt.globalsMade isAt.outermost isAt.agrees ?_
      assigns unassigned
    intro distance found
    obtain ⟨scope, atDistance, -, -⟩ := distance?_eq_some (writtenFiled.symm.trans found)
    exact (List.getElem?_eq_some_iff.mp atDistance).1
  -- A read looks past the scope in which the name is awaited, an assignment finds it there.
  | true =>
    refine .inr ⟨within.inInitializer rfl awaited, fun use member isName => ?_⟩
    rw [filed use member, isName]
    cases use with
    | read target =>
      rw [Use.target] at isName
      rw [skip, isName, awaited]
      rfl
    | write target => exact distance?_of_awaits awaited

end Site

/-- The name of the variables in the examples. -/
def sharedName : Token :=
  .ofName "a" 1

/-- The expression `(a = "in") + a`. -/
def assignedAndRead : Expr :=
  .binary (.grouping (.assign ⟨1, sharedName⟩ (.literal (.string "in")))) ⟨.symbol .plus, "+", 1⟩
    (.read ⟨2, sharedName⟩)

/-- A local variable is declared, and then assigned to and read in one
expression. -/
def assignedLater : List Stmt :=
  [.block [.declare sharedName (some (.literal (.string "out"))), .print assignedAndRead]]

/-- A program with an assignment and a read of one variable, whose two uses are filed
alike. -/
theorem uses_mean_one_variable_assignedLater :
    (Stmt.listIds assignedLater).Nodup ∧ (resolve [] assignedLater).errors = #[] ∧
      assignedAndRead.OneVariable "a" (resolve [] assignedLater).distances := by
  have distinct : (Stmt.listIds assignedLater).Nodup := by decide +kernel
  have accepted : (resolve [] assignedLater).errors = #[] := by decide +kernel
  have block : Site.Within (Site.start [] assignedLater) ⟨{}, .statement _, _⟩ :=
    .step .refl List.mem_cons_self
  have rest := (block.step List.mem_cons_self).step (List.mem_cons_of_mem _ List.mem_cons_self)
  have within := (rest.step List.mem_cons_self).step List.mem_cons_self
  refine ⟨distinct, accepted, ?_⟩
  rcases Site.uses_mean_one_variable distinct accepted within "a" with ⟨oneVariable, -⟩ | ⟨-, apart⟩
  · exact oneVariable
  · have skipped := apart (.read ⟨2, sharedName⟩) (by decide +kernel) rfl
    have filed : (resolve [] assignedLater).distances[2]? = some 0 := by decide +kernel
    exact nomatch filed.symm.trans skipped

/-- An outer variable, and a local one of the same name the initializer of which
assigns to the name and reads it. -/
def assignedInInitializer : List Stmt :=
  [.declare sharedName (some (.literal (.string "out"))),
    .block [.declare sharedName (some assignedAndRead), .print (.read ⟨3, sharedName⟩)]]

/-- The source text of that program. -/
def assignedInInitializerText : String :=
  "var a = \"out\"; \x7b var a = (a = \"in\") + a; print a; \x7d"

/-- In its own initializer, the name of a local variable means that variable where it
is assigned to and an outer one where it is read, so that the value assigned is not
the one that is read. -/
theorem assigned_and_read_differ_in_initializer :
    (Stmt.listIds assignedInInitializer).Nodup ∧
      (resolve [] assignedInInitializer).errors = #[] ∧
      (∃ walk, Site.Within (Site.start [] assignedInInitializer)
        ⟨{}, .expression assignedAndRead, walk⟩) ∧
      ¬ assignedAndRead.OneVariable "a" (resolve [] assignedInInitializer).distances ∧
      ((Session.fresh { reading := fun _ => 0 } {}).run 20
        assignedInInitializerText).any (fun one =>
        one.1.errors.isEmpty && one.2.machine.output.written == "inout\n".toUTF8) = true := by
  have first : Site.Within (Site.start [] assignedInInitializer) ⟨{}, .statements _, _⟩ :=
    .step .refl (List.mem_cons_of_mem _ List.mem_cons_self)
  have block := ((first.step List.mem_cons_self).step List.mem_cons_self).step List.mem_cons_self
  refine ⟨by decide +kernel, by decide +kernel, ⟨_, block.step List.mem_cons_self⟩, ?_, ?_⟩
  · rintro ⟨distance, alike⟩
    have written : (resolve [] assignedInInitializer).distances[1]? = some 0 := by decide +kernel
    have read : (resolve [] assignedInInitializer).distances[2]? = none := by decide +kernel
    have sameWritten := alike (.write ⟨1, sharedName⟩) (by decide +kernel) rfl
    have sameRead := alike (.read ⟨2, sharedName⟩) (by decide +kernel) rfl
    exact nomatch (written.symm.trans sameWritten).trans (sameRead.symm.trans read)
  · decide +kernel

end TreeWalk
